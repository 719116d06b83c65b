import ReplicaStore.Action
import ReplicaStore.Disk.Basic

/-! # Record files

    A record file keeps payloads in the order in which they were appended. Opening one reads its
    intact frames and cuts a torn tail off; a damaged file is refused and stays as it is. An open
    file knows the length of its intact frames, and before each append the file is set to that
    length, so nothing lands behind bytes that came from elsewhere. -/

namespace ReplicaStore

structure RecordFile where
  /-- The path it was opened under. -/
  path : String
  /-- Where it stood when it was opened. -/
  location : Location
  /-- Which file it is. -/
  identity : Nat
  /-- The number of bytes of its intact frames. -/
  length : Nat
deriving DecidableEq, Repr

namespace RecordFile

/-! ## Bytes -/

/-- A byte string set to a length: cut, or filled up with zeros. -/
def resize (length : Nat) (bs : Bytes) : Bytes :=
  bs.take length ++ List.replicate (length - bs.length) 0

/-- What opening makes of a file's bytes: its payloads and the bytes that stay, or the damage and
    where it starts. -/
def recover (bs : Bytes) : Except (Frame.Damage × Nat) (List Bytes × Bytes) :=
  let s := Frame.scan bs
  match s.ending with
  | .damaged damage => .error (damage, s.intact)
  | _ => .ok (s.payloads, bs.take s.intact)

/-- A file's bytes after an append through a handle of the given length. -/
def extend (length : Nat) (bs payload : Bytes) : Bytes :=
  resize length bs ++ Frame.encode payload

theorem resize_append (bs stray : Bytes) : resize bs.length (bs ++ stray) = bs := by
  simp [resize]

/-! ## Files -/

/-- Opens a record file, making it if it is missing, and returns its payloads. -/
def openAt (path : String) : Action Disk (RecordFile × List Bytes) := fun d =>
  match d.locateFile path with
  | .error e => (.error (.cannotOpen path e), d)
  | .ok loc =>
    let ((identity, data), d) := d.ensureFile loc
    match recover data with
    | .error (damage, offset) => (.error (.damagedFile path offset damage), d)
    | .ok (payloads, kept) =>
      (.ok (⟨path, loc, identity, kept.length⟩, payloads), d.setData loc kept)

/-- Appends a payload and returns the handle after it. If the file was removed meanwhile, the append
    goes to the removed file and the disk shows nothing of it. -/
def append (f : RecordFile) (payload : Bytes) : Action Disk RecordFile := fun d =>
  if Frame.payloadLimit ≤ payload.length then (.error .payloadTooLarge, d)
  else
    let after := { f with length := f.length + (Frame.encode payload).length }
    match d.node? f.location with
    | some (.file identity data) =>
      if identity = f.identity then (.ok after, d.setData f.location (extend f.length data payload))
      else (.ok after, d)
    -- The file was removed: the handle still writes to it, but no path leads there.
    | _ => (.ok after, d)

end RecordFile

end ReplicaStore
