import ReplicaStore.Engine.Cursor
import ReplicaStore.Error

/-! # The operation log

    The log is a sequence of slots that an engine keeps: the record of each slot under the slot's
    key, and the length under a key of its own. A batch of entries and the new length are written as
    one, so either all of a batch is in the log or nothing of it.

    Collecting garbage removes the records of slots and leaves the length; the record of the last
    slot always stays, because opening the log reads its term. -/

namespace ReplicaStore

/-- An open log: what its engine holds, and what it remembers. -/
structure OperationLog where
  contents : Contents
  /-- The number of slots. -/
  length : Nat
  /-- The term of the last slot. -/
  lastTerm : Int64

namespace OperationLog

/-- The last term of a log without slots. -/
def noTerm : Int64 := -1

/-- The greatest length that a length record may hold. -/
def maxLength : Nat := 2 ^ 63 - 1

/-- Where a length wraps around to when it passes the greatest one. It is below zero, so that no key
    can be written for it. -/
def wrappedLength : Int := -2 ^ 63

/-- The index of the last slot; below zero if there is none. -/
def lastIndex (log : OperationLog) : Int :=
  (log.length : Int) - 1

/-! ## Reading -/

/-- The entry that an engine holds for a slot. -/
def readRecord (f : Fault) (c : Contents) (slot : Nat) : Except Error (Option Entry) := do
  match ← (f.get c (SlotKey.ofSlot slot)).mapError .engine with
  | none => return none
  | some record => return some (← (Record.decode record).mapError .record)

/-- The length that a length record holds. -/
def readLength (record : Bytes) : Except Error Nat := do
  let text ← (Utf8.decodeText record).mapError .lengthNotText
  let length ← (SlotKey.slot text).mapError .slotKey
  if maxLength < length then throw (.lengthOutOfRange length)
  return length

/-- Opens the log that an engine holds. Without a length record, or with an empty one, it has no
    slots. -/
def openOn (f : Fault) (c : Contents) : Except Error OperationLog := do
  let length ← match ← (f.get c SlotKey.lengthKey).mapError .engine with
    | none | some [] => pure 0
    | some record => readLength record
  if length = 0 then return ⟨c, 0, noTerm⟩
  match ← readRecord f c (length - 1) with
  | none => throw (.missingTail length)
  | some entry => return ⟨c, length, entry.term⟩

/-- The entry of a slot. Slots at or past the length and collected slots have none. -/
def readSlot (f : Fault) (log : OperationLog) (index : Int) : Except Error (Option Entry) :=
  if index < 0 then .error (.negativeSlot index)
  else if log.length ≤ index then .ok none
  else readRecord f log.contents index.toNat

/-! ## Appending -/

def lengthWrite (length : Nat) : Write :=
  .put SlotKey.lengthKey (SlotKey.ofSlot length)

/-- The writes that put records into the slots from `slot` on. -/
def slotWrites (slot : Nat) : List Bytes → Batch
  | [] => []
  | record :: records => .put (SlotKey.ofSlot slot) record :: slotWrites (slot + 1) records

/-- Appends entries, all or none. -/
def appendBatch (f : Fault) (log : OperationLog) (entries : List Entry) :
    Except Error OperationLog :=
  match entries.getLast? with
  | none => .ok log
  | some last => do
    let records ← (entries.mapM Record.encode).mapError .oversize
    let length := log.length + entries.length
    if maxLength < length then throw (.negativeSlot wrappedLength)
    let batch := slotWrites log.length records ++ [lengthWrite length]
    let contents ← (f.write log.contents batch).mapError .engine
    return ⟨contents, length, last.term⟩

def append (f : Fault) (log : OperationLog) (entry : Entry) : Except Error OperationLog :=
  log.appendBatch f [entry]

/-! ## Cutting -/

/-- The writes that remove `count` slots from `slot` on. -/
def slotDeletes (slot : Nat) : (count : Nat) → Batch
  | 0 => []
  | count + 1 => .delete (SlotKey.ofSlot slot) :: slotDeletes (slot + 1) count

/-- The last term of the log once it is cut to a length. -/
def termAt (f : Fault) (log : OperationLog) (length : Nat) : Except Error Int64 :=
  if length = 0 then .ok noTerm
  else do
    match ← readRecord f log.contents (length - 1) with
    | none => throw (.missingSlot (length - 1))
    | some entry => return entry.term

/-- Discards the slots after an index; an index below zero empties the log. The new last term is
    read before anything is written. -/
def truncate (f : Fault) (log : OperationLog) (index : Int) : Except Error OperationLog :=
  let length := (max index (-1) + 1).toNat
  -- The length that wraps around passes for one before the end, until its key is written.
  if maxLength < length then .error (.negativeSlot wrappedLength)
  else if log.length < length then .error (.cutBeyondEnd index log.length)
  else if length = log.length then .ok log
  else do
    let term ← log.termAt f length
    let batch := slotDeletes length (log.length - length) ++ [lengthWrite length]
    let contents ← (f.write log.contents batch).mapError .engine
    return ⟨contents, length, term⟩

/-! ## Collecting -/

/-- Removes the record of a slot and says whether there was one. The last slot stays. -/
def removeSlot (f : Fault) (log : OperationLog) (index : Int) :
    Except Error (Bool × OperationLog) := do
  if index < 0 then throw (.negativeSlot index)
  if index = log.lastIndex then throw (.lastSlot index)
  let key := SlotKey.ofSlot index.toNat
  match ← (f.get log.contents key).mapError .engine with
  | none => return (false, log)
  | some _ =>
    let contents ← (f.write log.contents [.delete key]).mapError .engine
    return (true, { log with contents })

/-- The slot below which a collection before an index removes records. -/
def collectBound (log : OperationLog) (index : Int) : Int :=
  min index log.lastIndex

/-- The keys of the records below a slot, as a cursor over the contents finds them. -/
def keysBelow (c : Contents) (slot : Nat) : List Bytes :=
  let found := (Cursor.before c).seek (SlotKey.ofSlot 0)
  (found.takeWhile fun k => k < SlotKey.ofSlot slot).map Prod.fst

/-- Removes every record below an index, except the last slot's, and returns their number. Space is
    reclaimed afterwards; if that fails the records are gone all the same. -/
def removeBefore (f : Fault) (log : OperationLog) (index : Int) :
    Except Error Nat × OperationLog :=
  let bound := log.collectBound index
  if bound ≤ 0 then (.ok 0, log)
  else
    let keys := keysBelow log.contents bound.toNat
    -- The cursor's status is asked for before anything is written.
    let removed : Except EngineError Contents := do
      f.status
      f.write log.contents (keys.map .delete)
    match removed with
    | .error e => (.error (.engine e), log)
    | .ok contents =>
      -- From here on the records are gone, whatever becomes of the compaction.
      ((f.check .compact).map (fun _ => keys.length) |>.mapError .engine, { log with contents })

end OperationLog

end ReplicaStore
