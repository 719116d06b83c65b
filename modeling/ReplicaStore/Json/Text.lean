import ReplicaStore.Json.Token

/-! # Writing JSON

    Strings are written with escapes only where they are needed: the quote, the backslash and the
    controls below the blank, which have a short escape or a code of four digits. So a written
    string has no line break in it. -/

namespace ReplicaStore.Json

/-- A digit of an escape, in lower case. -/
def codeDigit (n : Nat) : Char :=
  Char.ofNat (Hex.digit n).toNat

/-- One character of a string. -/
def escape (c : Char) : List Char :=
  if c = quote ∨ c = '\\' then ['\\', c]
  else if c = '\x08' then ['\\', 'b']
  else if c = '\x0c' then ['\\', 'f']
  else if c = '\n' then ['\\', 'n']
  else if c = '\r' then ['\\', 'r']
  else if c = '\t' then ['\\', 't']
  else if c.toNat < 0x20 then
    ['\\', 'u', '0', '0', codeDigit (c.toNat / 16), codeDigit (c.toNat % 16)]
  else [c]

def writeString (s : String) : List Char :=
  quote :: s.toList.flatMap escape ++ [quote]

/-- A member of an object: its name, a colon and its value. -/
def writeMember (name : String) (value : List Char) : List Char :=
  writeString name ++ ':' :: value

/-- Members with commas between them. -/
def joinMembers : List (List Char) → List Char
  | [] => []
  | [m] => m
  | m :: ms => m ++ ',' :: joinMembers ms

def writeObject (members : List (List Char)) : List Char :=
  '\x7b' :: joinMembers members ++ ['\x7d']

end ReplicaStore.Json
