import ReplicaStore.Json.Token

/-! # Tokens of a configuration text

    A configuration is a TOML text. It falls into signs, words, strings, blanks and line ends;
    comments are left out. A word is a run of letters, digits, underscores, dashes, plus signs and
    colons: a bare key, or a piece of a number, a truth value or a date. Dots are tokens of their
    own, since they separate keys as well as the parts of a number. -/

namespace ReplicaStore.Toml

inductive Token where
  | newline
  /-- Spaces and tabs; `single` if it is one space. -/
  | blank (single : Bool)
  /-- A run of word characters. -/
  | word (text : List Char)
  | dot
  /-- A string; `multiline` if it may hold line ends. -/
  | string (text : List Char) (multiline : Bool)
  | equals
  | comma
  | arrayOpen
  | arrayClose
  | tableOpen
  | tableClose
deriving DecidableEq, Repr

/-! ## Characters -/

/-- The quote of strings with escapes. -/
def basicQuote : Char := '\x22'

/-- The quote of strings without escapes. -/
def literalQuote : Char := '\x27'

def isBlank (c : Char) : Bool :=
  c = ' ' ∨ c = '\t'

/-- Whether a character may stand in a comment or a string: everything but the controls other than
    the tab. -/
def isPlain (c : Char) : Bool :=
  c = '\t' ∨ (0x20 ≤ c.toNat ∧ c.toNat ≠ 0x7f)

def isWordChar (c : Char) : Bool :=
  c.isAlphanum ∨ c = '_' ∨ c = '-' ∨ c = '+' ∨ c = ':'

/-- The character of a one-letter escape. -/
def shortEscape? (c : Char) : Option Char :=
  if c = basicQuote ∨ c = '\\' then some c
  else if c = 'b' then some '\x08'
  else if c = 't' then some '\t'
  else if c = 'n' then some '\n'
  else if c = 'f' then some '\x0c'
  else if c = 'r' then some '\r'
  else none

/-- The number that hexadecimal digits write. -/
def hexNumber? (cs : List Char) : Option Nat :=
  cs.foldlM (fun n c => (Json.hexDigit? c).map (16 * n + ·)) 0

/-- The character whose code hexadecimal digits write. -/
def codeEscape? (cs : List Char) : Option Char := do
  let n ← hexNumber? cs
  if n < 0xD800 ∨ (0xDFFF < n ∧ n < 0x110000) then some (Char.ofNat n) else none

/-- What an escape after its backslash stands for, with its number of characters. -/
def escape? : List Char → Option (Char × Nat)
  | 'u' :: cs => if cs.length < 4 then none else (codeEscape? (cs.take 4)).map (·, 5)
  | 'U' :: cs => if cs.length < 8 then none else (codeEscape? (cs.take 8)).map (·, 9)
  | c :: _ => (shortEscape? c).map (·, 1)
  | [] => none

/-! ## Strings

    Each reader takes what follows the opening quotes and gives the characters of the string and how
    many characters it read, closing quotes included. -/

/-- Reads a string with escapes on one line. -/
def readBasic : List Char → Option (List Char × Nat)
  | [] => none
  | c :: cs =>
    if c = basicQuote then some ([], 1)
    else if c = '\\' then do
      let (e, size) ← escape? cs
      let (text, n) ← readBasic (cs.drop size)
      return (e :: text, n + size + 1)
    else if isPlain c then do
      let (text, n) ← readBasic cs
      return (c :: text, n + 1)
    else none
termination_by cs => cs.length
decreasing_by
  · simp only [List.length_drop, List.length_cons]; omega
  · simp

/-- Reads a string without escapes on one line. -/
def readLiteral : List Char → Option (List Char × Nat)
  | [] => none
  | c :: cs =>
    if c = literalQuote then some ([], 1)
    else if isPlain c then do
      let (text, n) ← readLiteral cs
      return (c :: text, n + 1)
    else none

/-- The number of characters of a line end that a text starts with. -/
def newlineSize : List Char → Nat
  | '\n' :: _ => 1
  | '\r' :: '\n' :: _ => 2
  | _ => 0

/-- How many quotes a text starts with. -/
def quoteRun (quote : Char) (cs : List Char) : Nat :=
  (cs.takeWhile (· = quote)).length

/-- Whether only blanks come before the next line end. -/
def endsLine (cs : List Char) : Bool :=
  0 < newlineSize (cs.dropWhile isBlank)

/-- How many blanks and line ends a text starts with, in characters. -/
def spaceRun : List Char → Nat
  | [] => 0
  | c :: cs =>
    if isBlank c ∨ c = '\n' then spaceRun cs + 1
    else if c = '\r' ∧ cs.head? = some '\n' then spaceRun cs + 1
    else 0

/-- Reads a string over several lines. Three quotes end it, and up to two more before them belong to
    it. With `escapes`, a backslash starts an escape, and one at the end of a line takes all blanks
    and line ends after it away. -/
def readMultiline (quote : Char) (escapes : Bool) : List Char → Option (List Char × Nat)
  | [] => none
  | c :: cs =>
    -- Of four or five quotes the last three end the string.
    let quotes := quoteRun quote (c :: cs)
    if 3 ≤ quotes then
      let kept := min (quotes - 3) 2
      some (List.replicate kept quote, kept + 3)
    else if escapes ∧ c = '\\' then
      if endsLine cs then do
        let size := spaceRun cs
        let (text, n) ← readMultiline quote escapes (cs.drop size)
        return (text, n + size + 1)
      else do
        let (e, size) ← escape? cs
        let (text, n) ← readMultiline quote escapes (cs.drop size)
        return (e :: text, n + size + 1)
    else if c = '\r' then
      if cs.head? = some '\n' then do
        let (text, n) ← readMultiline quote escapes cs
        return (text, n + 1)
      else none
    else if c = '\n' ∨ isPlain c then do
      let (text, n) ← readMultiline quote escapes cs
      return (c :: text, n + 1)
    else none
termination_by cs => cs.length
decreasing_by
  all_goals simp only [List.length_drop, List.length_cons]; omega

/-- Reads the string that a quote starts; `cs` follows the quote. A line end right after three
    opening quotes is no part of the string. -/
def readString (quote : Char) (cs : List Char) : Option (Token × Nat) :=
  if 2 ≤ quoteRun quote cs then
    let opening := 2 + newlineSize (cs.drop 2)
    (readMultiline quote (quote = basicQuote) (cs.drop opening)).map fun (text, n) =>
      (.string text true, opening + n)
  else
    ((if quote = basicQuote then readBasic else readLiteral) cs).map fun (text, n) =>
      (.string text false, n)

/-! ## Tokens -/

/-- Reads the token of first character `c`, with the number of characters that it takes after `c`. A
    comment is no token. -/
def readToken (c : Char) (cs : List Char) : Option (Option Token × Nat) :=
  if c = '\n' then some (some .newline, 0)
  else if c = '\r' then if cs.head? = some '\n' then some (some .newline, 1) else none
  else if isBlank c then
    let more := (cs.takeWhile isBlank).length
    some (some (.blank (c = ' ' ∧ more = 0)), more)
  else if c = '#' then some (none, (cs.takeWhile isPlain).length)
  else if c = '.' then some (some .dot, 0)
  else if c = '=' then some (some .equals, 0)
  else if c = ',' then some (some .comma, 0)
  else if c = '[' then some (some .arrayOpen, 0)
  else if c = ']' then some (some .arrayClose, 0)
  else if c = '\x7b' then some (some .tableOpen, 0)
  else if c = '\x7d' then some (some .tableClose, 0)
  else if c = basicQuote ∨ c = literalQuote then
    (readString c cs).map fun (t, n) => (some t, n)
  else if isWordChar c then
    let more := cs.takeWhile isWordChar
    some (some (.word (c :: more)), more.length)
  else none

/-- The tokens of a text, if it falls into tokens. -/
def tokens? : List Char → Option (List Token)
  | [] => some []
  | c :: cs => do
    let (t, n) ← readToken c cs
    let ts ← tokens? (cs.drop n)
    return t.toList ++ ts
termination_by cs => cs.length
decreasing_by simp only [List.length_drop, List.length_cons]; omega

end ReplicaStore.Toml
