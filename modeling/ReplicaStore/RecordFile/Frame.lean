import ReplicaStore.RecordFile.Checksum

/-! # Frames

    A record file is a sequence of frames. A frame is a magic number, the length of its payload, the
    payload and the checksum of all that, each number in four bytes, least significant first.

    A crash in the middle of an append leaves the beginning of a frame at the end of the file, or
    zeros; that is a *torn* tail. Bytes that are no frame and no torn tail are *damage*. -/

namespace ReplicaStore.Frame

/-! ## Writing -/

/-- The bytes that every frame starts with. -/
def magic : Bytes := Bytes.ofNatLE 4 0x4D424843

/-- The number of bytes before a payload. -/
def headerSize : Nat := 8

/-- The number of bytes around a payload. -/
def overhead : Nat := headerSize + 4

/-- The bound below which the length of a payload must stay. -/
def payloadLimit : Nat := 2 ^ 32

/-- A frame up to its checksum. -/
def body (payload : Bytes) : Bytes :=
  magic ++ Bytes.ofNatLE 4 payload.length ++ payload

def encode (payload : Bytes) : Bytes :=
  body payload ++ Bytes.ofNatLE 4 (Checksum.ofBytes (body payload)).toNat

/-- The frames of payloads, in order. -/
def encodeAll (payloads : List Bytes) : Bytes :=
  payloads.flatMap encode

@[simp] theorem length_magic : magic.length = 4 := by simp [magic]

@[simp] theorem length_encode (payload : Bytes) :
    (encode payload).length = payload.length + overhead := by
  simp only [encode, body, overhead, headerSize, List.length_append, length_magic,
    Bytes.length_ofNatLE]
  omega

@[simp] theorem encodeAll_nil : encodeAll [] = [] := rfl

@[simp] theorem encodeAll_cons (p : Bytes) (ps : List Bytes) :
    encodeAll (p :: ps) = encode p ++ encodeAll ps := rfl

/-! ## Reading one frame -/

inductive Damage where
  /-- They do not start with the magic number. -/
  | badMagic
  /-- The checksum does not match, and more follows. -/
  | badChecksum
deriving DecidableEq, Repr

def Damage.message : Damage → String
  | .badMagic => "bad record magic"
  | .badChecksum => "record checksum mismatch"

/-- What bytes that run to the end of a file start with. -/
inductive Head where
  | frame (payload : Bytes)
  | torn
  | damaged (damage : Damage)
deriving DecidableEq, Repr

/-- Reads the start of bytes that run to the end of a file. The length is believed before anything
    else is checked. -/
def read (bs : Bytes) : Head :=
  if bs.length < headerSize then .torn
  else if bs.take 4 ≠ magic then
    if bs.all (· = 0) then .torn else .damaged .badMagic
  else
    let size := Bytes.toNatLE ((bs.drop 4).take 4)
    let rest := bs.drop headerSize
    if rest.length < size then .torn
    else if rest.length < size + 4 then .torn
    else
      let stored := Bytes.toNatLE ((rest.drop size).take 4)
      if (Checksum.ofBytes (bs.take (headerSize + size))).toNat ≠ stored then
        if rest.length = size + 4 then .torn else .damaged .badChecksum
      else .frame (rest.take size)

/-! ## Reading a file -/

/-- How a file ends after its intact frames. -/
inductive Ending where
  /-- With the last frame. -/
  | complete
  /-- With a torn tail. -/
  | torn
  /-- With damage. -/
  | damaged (damage : Damage)
deriving DecidableEq, Repr

/-- What a file holds. -/
structure Scan where
  /-- The payloads of the intact frames that the file starts with. -/
  payloads : List Bytes
  /-- The number of bytes of those frames. -/
  intact : Nat
  /-- What follows them. -/
  ending : Ending
deriving DecidableEq, Repr

/-- Reads frame after frame, as far as they are intact. -/
def scan : Bytes → Scan
  | [] => ⟨[], 0, .complete⟩
  | b :: bs =>
    match read (b :: bs) with
    | .torn => ⟨[], 0, .torn⟩
    | .damaged damage => ⟨[], 0, .damaged damage⟩
    | .frame payload =>
      let size := payload.length + overhead
      let later := scan ((b :: bs).drop size)
      ⟨payload :: later.payloads, size + later.intact, later.ending⟩
termination_by bs => bs.length
decreasing_by simp only [List.length_drop, List.length_cons, overhead]; omega

end ReplicaStore.Frame
