import ReplicaStore.Text.Decimal
import ReplicaStore.Text.Hex

/-! # JSON tokens

    The text of a JSON value falls into tokens: signs, words, numbers and strings, with blanks
    between them. A number is kept by its value if it is written as a whole number, and a string by
    its text if its surrogate escapes pair up; other numbers and strings are well-formed too, but
    hold nothing that a record of this store can hold. -/

namespace ReplicaStore.Json

inductive Token where
  | objectOpen
  | objectClose
  | arrayOpen
  | arrayClose
  | comma
  | colon
  | null
  | bool (b : Bool)
  /-- A number, with its value if it is written as a whole number. -/
  | number (whole : Option Int)
  /-- A string, with its text if it has one. -/
  | string (text : Option String)
deriving DecidableEq, Repr

/-- The double quote, around a string. -/
def quote : Char := '\x22'

/-! ## Strings -/

/-- What one character or escape of a string stands for. -/
inductive Piece where
  | char (c : Char)
  /-- A surrogate: one half of a character. -/
  | half (code : Nat)
deriving DecidableEq, Repr

/-- What the code of an escape stands for. -/
def Piece.ofCode (code : Nat) : Piece :=
  if 0xD800 ≤ code ∧ code < 0xE000 then .half code else .char (Char.ofNat code)

def hexDigit? (c : Char) : Option Nat :=
  if c.toNat < 0x80 then Hex.value? (UInt8.ofNat c.toNat) else none

/-- The code that four hexadecimal digits write. -/
def hexCode? (a b c d : Char) : Option Nat := do
  return ((← hexDigit? a) * 16 + (← hexDigit? b)) * 256 + (← hexDigit? c) * 16 + (← hexDigit? d)

/-- The character of a one-letter escape. -/
def shortEscape? (c : Char) : Option Char :=
  if c = quote ∨ c = '\\' ∨ c = '/' then some c
  else if c = 'b' then some '\x08'
  else if c = 'f' then some '\x0c'
  else if c = 'n' then some '\n'
  else if c = 'r' then some '\r'
  else if c = 't' then some '\t'
  else none

/-- Reads a string up to its closing quote; the opening one has been read. -/
def readString : List Char → Option (List Piece × List Char)
  | [] => none
  | '\\' :: 'u' :: a :: b :: c :: d :: rest => do
    let code ← hexCode? a b c d
    let (pieces, rest) ← readString rest
    return (Piece.ofCode code :: pieces, rest)
  | '\\' :: e :: rest => do
    let c ← shortEscape? e
    let (pieces, rest) ← readString rest
    return (Piece.char c :: pieces, rest)
  | c :: rest =>
    if c = quote then some ([], rest)
    else if c.toNat < 0x20 ∨ c = '\\' then none
    else do
      let (pieces, rest) ← readString rest
      return (Piece.char c :: pieces, rest)

/-- The characters of a string's pieces: a high half joins the low half right after it, and no other
    half may stand. -/
def joinHalves : List Piece → Option (List Char)
  | [] => some []
  | .char c :: ps => (joinHalves ps).map (c :: ·)
  | .half high :: .half low :: ps =>
    if high < 0xDC00 ∧ 0xDC00 ≤ low then
      (joinHalves ps).map (Char.ofNat (0x10000 + (high - 0xD800) * 0x400 + (low - 0xDC00)) :: ·)
    else none
  | .half _ :: _ => none

theorem readString_length {s : List Char} {pieces : List Piece} {rest : List Char}
    (h : readString s = some (pieces, rest)) : rest.length < s.length := by
  -- One case for each branch of the reader; in each the rest is that of a shorter text.
  fun_induction readString s generalizing pieces rest with
  | case1 => cases h
  | case2 a b c d tail ih =>
    simp only [Option.bind_eq_bind, Option.bind_eq_some_iff] at h
    obtain ⟨code, -, ⟨ps, r⟩, hr, he⟩ := h
    cases he
    have := ih hr
    simp only [List.length_cons]
    omega
  | case3 e tail _ ih =>
    simp only [Option.bind_eq_bind, Option.bind_eq_some_iff] at h
    obtain ⟨c, -, ⟨ps, r⟩, hr, he⟩ := h
    cases he
    have := ih hr
    simp only [List.length_cons]
    omega
  | case4 => cases h; simp
  | case5 => cases h
  | case6 c tail _ _ _ _ ih =>
    simp only [Option.bind_eq_bind, Option.bind_eq_some_iff] at h
    obtain ⟨⟨ps, r⟩, hr, he⟩ := h
    cases he
    have := ih hr
    simp only [List.length_cons]
    omega

/-! ## Numbers -/

/-- Splits off the digits at the front; there must be one at least. -/
def readDigits (s : List Char) : Option (List Char × List Char) :=
  match s.takeWhile Decimal.isDigit with
  | [] => none
  | ds => some (ds, s.dropWhile Decimal.isDigit)

/-- Skips a fraction, if one follows, and says whether one did. -/
def skipFraction : List Char → Option (Bool × List Char)
  | '.' :: rest => (readDigits rest).map fun (_, rest) => (true, rest)
  | s => some (false, s)

/-- Skips the sign of an exponent, if there is one. -/
def skipSign : List Char → List Char
  | '+' :: rest => rest
  | '-' :: rest => rest
  | s => s

/-- Skips an exponent, if one follows, and says whether one did. -/
def skipExponent : List Char → Option (Bool × List Char)
  | 'e' :: rest => (readDigits (skipSign rest)).map fun (_, rest) => (true, rest)
  | 'E' :: rest => (readDigits (skipSign rest)).map fun (_, rest) => (true, rest)
  | s => some (false, s)

/-- Reads the whole part of a number: a zero alone, or digits that start with another one. -/
def readWhole : List Char → Option (Nat × List Char)
  | '0' :: rest => some (0, rest)
  | s => do
    let (digits, rest) ← readDigits s
    let n ← Decimal.nat? digits
    return (n, rest)

/-- Reads a number after its sign. A zero with a minus sign is no whole number. -/
def readNumber (negative : Bool) (s : List Char) : Option (Token × List Char) := do
  let (whole, rest) ← readWhole s
  let (fraction, rest) ← skipFraction rest
  let (exponent, rest) ← skipExponent rest
  let value : Option Int :=
    if fraction ∨ exponent ∨ (negative ∧ whole = 0) then none
    else if negative then some (-(whole : Int)) else some whole
  return (.number value, rest)

/-! ## Tokens -/

/-- Whether a character is a blank between tokens. -/
def isBlank (c : Char) : Bool :=
  c = ' ' ∨ c = '\t' ∨ c = '\n' ∨ c = '\r'

/-- Reads the token at the front of a text that starts with no blank. -/
def readToken : List Char → Option (Token × List Char)
  | '\x7b' :: rest => some (.objectOpen, rest)
  | '\x7d' :: rest => some (.objectClose, rest)
  | '[' :: rest => some (.arrayOpen, rest)
  | ']' :: rest => some (.arrayClose, rest)
  | ',' :: rest => some (.comma, rest)
  | ':' :: rest => some (.colon, rest)
  | '\x22' :: rest =>
    (readString rest).map fun (pieces, rest) =>
      (.string ((joinHalves pieces).map String.ofList), rest)
  | 'n' :: 'u' :: 'l' :: 'l' :: rest => some (.null, rest)
  | 't' :: 'r' :: 'u' :: 'e' :: rest => some (.bool true, rest)
  | 'f' :: 'a' :: 'l' :: 's' :: 'e' :: rest => some (.bool false, rest)
  | '-' :: rest => readNumber true rest
  | s => readNumber false s

theorem readDigits_length {s ds rest : List Char} (h : readDigits s = some (ds, rest)) :
    rest.length < s.length := by
  unfold readDigits at h
  split at h
  · cases h
  · rename_i hne
    cases h
    have hsum := congrArg List.length
      (List.takeWhile_append_dropWhile (p := Decimal.isDigit) (l := s))
    have hpos : 0 < (s.takeWhile Decimal.isDigit).length := List.length_pos_iff.2 hne
    simp only [List.length_append] at hsum
    omega

theorem skipFraction_length {s rest : List Char} {b : Bool} (h : skipFraction s = some (b, rest)) :
    rest.length ≤ s.length := by
  unfold skipFraction at h
  split at h
  · simp only [Option.map_eq_some_iff] at h
    obtain ⟨⟨ds, r⟩, hr, he⟩ := h
    cases he
    have := readDigits_length hr
    simp only [List.length_cons]
    omega
  · cases h; exact Nat.le_refl _

theorem skipSign_length (s : List Char) : (skipSign s).length ≤ s.length := by
  unfold skipSign
  split <;> simp

theorem skipExponent_length {s rest : List Char} {b : Bool} (h : skipExponent s = some (b, rest)) :
    rest.length ≤ s.length := by
  unfold skipExponent at h
  split at h
  iterate 2
    simp only [Option.map_eq_some_iff] at h
    obtain ⟨⟨ds, r⟩, hr, he⟩ := h
    cases he
    have h₁ := readDigits_length hr
    rename_i tail
    have h₂ := skipSign_length tail
    simp only [List.length_cons]
    omega
  cases h
  exact Nat.le_refl _

theorem readWhole_length {s rest : List Char} {n : Nat} (h : readWhole s = some (n, rest)) :
    rest.length < s.length := by
  unfold readWhole at h
  split at h
  · cases h; simp
  · simp only [Option.bind_eq_bind, Option.bind_eq_some_iff] at h
    obtain ⟨⟨ds, r⟩, hr, m, -, he⟩ := h
    cases he
    exact readDigits_length hr

theorem readNumber_length {negative : Bool} {s rest : List Char} {t : Token}
    (h : readNumber negative s = some (t, rest)) : rest.length < s.length := by
  simp only [readNumber, Option.bind_eq_bind, Option.bind_eq_some_iff] at h
  obtain ⟨⟨n, r₁⟩, h₁, ⟨f, r₂⟩, h₂, ⟨e, r₃⟩, h₃, he⟩ := h
  cases he
  -- The whole part takes a digit at least, and the other parts never give any back.
  have hw : r₁.length < s.length := readWhole_length h₁
  have hf : r₂.length ≤ r₁.length := skipFraction_length h₂
  have he : r₃.length ≤ r₂.length := skipExponent_length h₃
  show r₃.length < s.length
  omega

theorem readToken_length {s rest : List Char} {t : Token} (h : readToken s = some (t, rest)) :
    rest.length < s.length := by
  unfold readToken at h
  split at h
  iterate 6 (cases h; simp)
  · simp only [Option.map_eq_some_iff] at h
    obtain ⟨⟨ps, r⟩, hr, he⟩ := h
    cases he
    have := readString_length hr
    simp only [List.length_cons]
    omega
  iterate 3 (cases h; simp only [List.length_cons]; omega)
  · have := readNumber_length h
    simp only [List.length_cons]
    omega
  · exact readNumber_length h

/-- The tokens of a text, if it falls into tokens. -/
def tokens? : List Char → Option (List Token)
  | [] => some []
  | c :: cs =>
    if isBlank c then tokens? cs
    else
      match h : readToken (c :: cs) with
      | none => none
      | some (t, rest) =>
        have : rest.length < (c :: cs).length := readToken_length h
        (tokens? rest).map (t :: ·)
termination_by s => s.length
decreasing_by all_goals simp only [List.length_cons] at *; omega

end ReplicaStore.Json
