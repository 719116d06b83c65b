import ReplicaStore.Log.Entry
import ReplicaStore.Text.Utf8

/-! # The record of an entry

    A record is the byte of the operation, then user, key and value, each as a 32-bit length and
    that many bytes of UTF-8, then the term as a signed 64-bit number; all numbers have their least
    significant byte first. A record is read to its last byte: nothing may be missing and nothing
    left over. -/

namespace ReplicaStore.Record

/-- The text fields of a record, in order. -/
inductive Field where
  | user
  | key
  | value
deriving DecidableEq, Repr

def Field.name : Field → String
  | .user => "user"
  | .key => "key"
  | .value => "value"

/-- The bound below which the length of a field must stay. -/
def fieldLimit : Nat := 2 ^ 31

/-- The number of bytes of a record whose fields are empty. -/
def minSize : Nat := 1 + 4 + 4 + 4 + 8

/-! ## Writing -/

/-- A field that is too long for its length to be written. -/
structure Oversize where
  field : Field
  size : Nat
deriving DecidableEq, Repr

def Oversize.message (e : Oversize) : String :=
  s!"log entry {e.field.name} too large: {e.size} bytes"

/-- A field with its length before it. -/
def encodeField (field : Field) (s : String) : Except Oversize Bytes :=
  let bytes := Utf8.encodeText s
  if bytes.length < fieldLimit then .ok (Bytes.ofNatLE 4 bytes.length ++ bytes)
  else .error ⟨field, bytes.length⟩

/-- The record of an entry. -/
def encode (e : Entry) : Except Oversize Bytes := do
  let user ← encodeField .user e.user
  let key ← encodeField .key e.key
  let value ← encodeField .value e.value
  return e.operation.opcode :: (user ++ key ++ value ++ Bytes.ofInt64LE e.term)

def encodedLength (e : Entry) : Nat :=
  minSize + (Utf8.encodeText e.user).length + (Utf8.encodeText e.key).length
    + (Utf8.encodeText e.value).length

/-! ## Reading -/

/-- Why a byte string is no record. -/
inductive Error where
  /-- The byte string is shorter than every record. -/
  | tooSmall (size : Nat)
  /-- The first byte stands for no operation. -/
  | unknownOpcode (byte : UInt8)
  /-- The length of a field is cut off. -/
  | noLength (field : Field)
  /-- The length of a field is negative. -/
  | negativeLength (field : Field)
  /-- A field is cut off. -/
  | truncated (field : Field) (need left : Nat)
  /-- A field is no UTF-8. -/
  | notText (field : Field) (fault : Utf8.Error)
  /-- What is left for the term has not eight bytes. -/
  | termSize (size : Nat)
deriving DecidableEq, Repr

def Error.message : Error → String
  | .tooSmall size => s!"log record too small: {size} bytes"
  | .unknownOpcode byte => s!"unknown log opcode {byte.toNat}"
  | .noLength field => s!"log record truncated before {field.name} length"
  | .negativeLength field => s!"log record has negative {field.name} length"
  | .truncated field need left =>
    s!"log record {field.name} truncated: need {need} bytes, have {left}"
  | .notText field fault => s!"log record {field.name} is not UTF-8: {fault.message}"
  | .termSize size => s!"log record term field has {size} bytes, expected 8"

/-- Reads one field off the front and returns it with the rest. -/
def decodeField (field : Field) (bs : Bytes) : Except Error (String × Bytes) :=
  if bs.length < 4 then .error (.noLength field)
  else
    let size := Bytes.toNatLE (bs.take 4)
    let rest := bs.drop 4
    if fieldLimit ≤ size then .error (.negativeLength field)
    else if rest.length < size then .error (.truncated field size rest.length)
    else match Utf8.decodeText (rest.take size) with
      | .ok s => .ok (s, rest.drop size)
      | .error fault => .error (.notText field fault)

/-- The operation that a byte stands for, or the refusal of the byte. -/
def decodeOperation (b : UInt8) : Except Error Operation :=
  match Operation.ofOpcode? b with
  | some op => .ok op
  | none => .error (.unknownOpcode b)

def decode (bs : Bytes) : Except Error Entry :=
  match bs with
  | [] => .error (.tooSmall 0)
  | b :: rest => do
    if bs.length < minSize then throw (.tooSmall bs.length)
    let operation ← decodeOperation b
    let (user, rest) ← decodeField .user rest
    let (key, rest) ← decodeField .key rest
    let (value, rest) ← decodeField .value rest
    if rest.length ≠ 8 then throw (.termSize rest.length)
    return ⟨operation, user, key, value, Bytes.toInt64LE rest⟩

end ReplicaStore.Record
