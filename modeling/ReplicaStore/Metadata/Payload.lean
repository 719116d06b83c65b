import ReplicaStore.Text.Utf8

/-! # Payloads of the metadata files

    A payload is one record: a term, a vote or the root principal. Numbers are signed 64-bit numbers
    in eight bytes, least significant first; a text is its number of bytes, in eight bytes, and the
    bytes. A record is read off the front of its payload, and what follows it is ignored. -/

namespace ReplicaStore

/-- The vote of a term: the server that got it. -/
structure Vote where
  term : Int64
  server : String
deriving DecidableEq, Repr

/-- The root principal, who bootstraps the cell. -/
structure Root where
  name : String
  password : String
deriving DecidableEq, Repr, Inhabited

def Root.blank : Root := ⟨"", ""⟩

namespace Payload

/-! ## Writing -/

/-- A text after its length. -/
def writeText (s : String) : Bytes :=
  let bytes := Utf8.encodeText s
  Bytes.ofNatLE 8 bytes.length ++ bytes

def ofTerm (term : Int64) : Bytes :=
  Bytes.ofInt64LE term

def ofVote (v : Vote) : Bytes :=
  Bytes.ofInt64LE v.term ++ writeText v.server

def ofRoot (r : Root) : Bytes :=
  writeText r.name ++ writeText r.password

/-! ## Reading -/

/-- Why a payload holds no record of the kind that is read. -/
inductive Error where
  | shortNumber
  | shortText
  | notText (fault : Utf8.Error)
deriving DecidableEq, Repr

def Error.message : Error → String
  | .shortNumber => "io error: unexpected end of file"
  | .shortText => "io error: "
  | .notText fault => s!"string is not valid utf8: {fault.message}"

/-- Reads the eight bytes of a number off the front. -/
def readEight (bs : Bytes) : Except Error (Bytes × Bytes) :=
  if bs.length < 8 then .error .shortNumber else .ok (bs.take 8, bs.drop 8)

/-- Reads a text off the front. -/
def readText (bs : Bytes) : Except Error (String × Bytes) := do
  let (size, rest) ← readEight bs
  let size := Bytes.toNatLE size
  if rest.length < size then throw .shortText
  match Utf8.decodeText (rest.take size) with
  | .ok s => return (s, rest.drop size)
  | .error fault => throw (.notText fault)

def toTerm (bs : Bytes) : Except Error Int64 := do
  let (number, _) ← readEight bs
  return Bytes.toInt64LE number

def toVote (bs : Bytes) : Except Error Vote := do
  let (number, rest) ← readEight bs
  let (server, _) ← readText rest
  return ⟨Bytes.toInt64LE number, server⟩

def toRoot (bs : Bytes) : Except Error Root := do
  let (name, rest) ← readText bs
  let (password, _) ← readText rest
  return ⟨name, password⟩

end Payload

end ReplicaStore
