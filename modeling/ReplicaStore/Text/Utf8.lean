import ReplicaStore.Bytes

/-! # UTF-8

    Text is stored in one to four bytes per character. A byte string falls into *parts*: encoded
    characters and the stretches that are none. A faulty stretch is maximal: it ends before the
    first byte that cannot continue a character, and it is *incomplete* if the byte string ends
    before that can be told.

    A strict reading fails at the first faulty part and says where it starts; a lossy reading shows
    each faulty part as one replacement character. -/

namespace ReplicaStore.Utf8

/-! ## Writing -/

def encodeChar (c : Char) : Bytes :=
  let n := c.toNat
  if n < 0x80 then [UInt8.ofNat n]
  else if n < 0x800 then [UInt8.ofNat (0xC0 + n / 64), UInt8.ofNat (0x80 + n % 64)]
  else if n < 0x10000 then
    [UInt8.ofNat (0xE0 + n / 4096), UInt8.ofNat (0x80 + n / 64 % 64), UInt8.ofNat (0x80 + n % 64)]
  else
    [UInt8.ofNat (0xF0 + n / 262144), UInt8.ofNat (0x80 + n / 4096 % 64),
      UInt8.ofNat (0x80 + n / 64 % 64), UInt8.ofNat (0x80 + n % 64)]

def encode (cs : List Char) : Bytes :=
  cs.flatMap encodeChar

def encodeText (s : String) : Bytes :=
  encode s.toList

@[simp] theorem encode_nil : encode [] = [] := rfl

@[simp] theorem encode_cons (c : Char) (cs : List Char) :
    encode (c :: cs) = encodeChar c ++ encode cs := rfl

/-! ## Parts -/

/-- One part of a byte string, with its number of bytes. -/
inductive Part where
  /-- An encoded character. -/
  | char (c : Char) (size : Nat)
  /-- A maximal stretch that no character starts with. -/
  | invalid (size : Nat)
  /-- The beginning of a character that the end of the byte string cuts off. -/
  | incomplete (size : Nat)
deriving DecidableEq, Repr

def Part.size : Part → Nat
  | .char _ size => size
  | .invalid size => size
  | .incomplete size => size

/-- What a lead byte promises: how many bytes follow, its own bits of the character, and the range
    of the first byte that follows. The range leaves out characters that fewer bytes can write,
    surrogates and numbers above the last character. -/
structure Lead where
  /-- The number of bytes after the lead byte. -/
  more : Nat
  /-- The bits that the lead byte gives. -/
  bits : Nat
  /-- The least first byte after the lead byte. -/
  low : Nat
  /-- The greatest first byte after the lead byte. -/
  high : Nat

/-- What a byte promises as the first of several. -/
def lead? (b : Nat) : Option Lead :=
  -- 0xC0 and 0xC1 could only start what a single byte writes.
  if b < 0xC2 then none
  else if b < 0xE0 then some ⟨1, b - 0xC0, 0x80, 0xBF⟩
  else if b = 0xE0 then some ⟨2, 0, 0xA0, 0xBF⟩
  -- From 0xED 0xA0 on come the surrogates.
  else if b = 0xED then some ⟨2, 0xD, 0x80, 0x9F⟩
  else if b < 0xF0 then some ⟨2, b - 0xE0, 0x80, 0xBF⟩
  else if b = 0xF0 then some ⟨3, 0, 0x90, 0xBF⟩
  else if b < 0xF4 then some ⟨3, b - 0xF0, 0x80, 0xBF⟩
  else if b = 0xF4 then some ⟨3, 4, 0x80, 0x8F⟩
  else none

/-- Reads the bytes after the lead byte: `seen` bytes are read and give `bits`, `more` are to come,
    and the next one must lie between `low` and `high`. -/
def readMore (seen bits low high : Nat) : (more : Nat) → Bytes → Part
  | 0, _ => .char (Char.ofNat bits) seen
  | _ + 1, [] => .incomplete seen
  | more + 1, b :: bs =>
    if low ≤ b.toNat ∧ b.toNat ≤ high then
      readMore (seen + 1) (bits * 64 + (b.toNat - 0x80)) 0x80 0xBF more bs
    else .invalid seen

/-- The part that a byte string of first byte `b` and rest `bs` starts with. -/
def firstPart (b : UInt8) (bs : Bytes) : Part :=
  if b.toNat < 0x80 then .char (Char.ofNat b.toNat) 1
  else match lead? b.toNat with
    | none => .invalid 1
    | some l => readMore 1 l.bits l.low l.high l.more bs

/-- The parts of a byte string, in order. -/
def parts : Bytes → List Part
  | [] => []
  | b :: bs =>
    let part := firstPart b bs
    part :: parts (bs.drop (part.size - 1))
termination_by bs => bs.length
decreasing_by simp only [List.length_drop, List.length_cons]; omega

/-! ## Reading -/

/-- Why a byte string is no text, and at which byte the fault starts. -/
inductive Error where
  /-- A stretch of `size` bytes that no character starts with. -/
  | invalid (size index : Nat)
  /-- The byte string ends inside a character. -/
  | incomplete (index : Nat)
deriving DecidableEq, Repr

def Error.message : Error → String
  | .invalid size index => s!"invalid utf-8 sequence of {size} bytes from index {index}"
  | .incomplete index => s!"incomplete utf-8 byte sequence from index {index}"

/-- The characters of the parts, which start at byte `index`, or the first fault among them. -/
def ofParts (index : Nat) : List Part → Except Error (List Char)
  | [] => .ok []
  | .char c size :: ps => (ofParts (index + size) ps).map (c :: ·)
  | .invalid size :: _ => .error (.invalid size index)
  | .incomplete _ :: _ => .error (.incomplete index)

/-- The characters of a byte string, or its first fault. -/
def decode (bs : Bytes) : Except Error (List Char) :=
  ofParts 0 (parts bs)

/-- The text of a byte string, or its first fault. -/
def decodeText (bs : Bytes) : Except Error String :=
  (decode bs).map String.ofList

/-- The character that stands for a part in a lossy reading. -/
def Part.shown : Part → Char
  | .char c _ => c
  | _ => '\uFFFD'

/-- The text of a byte string, with one replacement character for each faulty part. -/
def lossyText (bs : Bytes) : String :=
  String.ofList ((parts bs).map Part.shown)

end ReplicaStore.Utf8
