import ReplicaStore.Json.Token
import ReplicaStore.Toml.Value

/-! # Values of one word

    Truth values, numbers and dates are written without quotes. Digits of a number may be grouped by
    single underscores. A whole number fits 64 bits with its sign and has no leading zero, unless it
    is written in base sixteen, eight or two. A date must be one of the calendar. -/

namespace ReplicaStore.Toml

/-! ## Digits -/

/-- Digits without their underscores, each of which must stand between two digits. -/
def ungroup? (isDigit : Char → Bool) : List Char → Option (List Char)
  | [] => none
  | [c] => if isDigit c then some [c] else none
  | c :: '_' :: d :: cs =>
    if isDigit c then (ungroup? isDigit (d :: cs)).map (c :: ·) else none
  | c :: cs => if isDigit c then (ungroup? isDigit cs).map (c :: ·) else none

/-- Splits a sign off and says whether it is a minus sign. -/
def splitSign : List Char → Bool × List Char
  | '-' :: cs => (true, cs)
  | '+' :: cs => (false, cs)
  | cs => (false, cs)

/-- The decimal digits of a whole number, which has no leading zero. -/
def wholeDigits? (cs : List Char) : Option (List Char) := do
  let ds ← ungroup? Decimal.isDigit cs
  if ds.head? = some '0' ∧ ds.length ≠ 1 then none else some ds

/-! ## Whole numbers -/

/-- A number of 64 bits with its sign. -/
def inRange? (z : Int) : Option Int :=
  if -2 ^ 63 ≤ z ∧ z < 2 ^ 63 then some z else none

/-- The number that digits of a base write. -/
def baseNumber? (base : Nat) (cs : List Char) : Option Int := do
  let isDigit := fun c => (Json.hexDigit? c).any (· < base)
  let ds ← ungroup? isDigit cs
  inRange? (ds.foldl (fun n c => base * n + (Json.hexDigit? c).getD 0) 0 : Nat)

def integer? : List Char → Option Int
  | '0' :: 'x' :: cs => baseNumber? 16 cs
  | '0' :: 'o' :: cs => baseNumber? 8 cs
  | '0' :: 'b' :: cs => baseNumber? 2 cs
  | cs => do
    let (negative, cs) := splitSign cs
    let n ← Decimal.nat? (← wholeDigits? cs)
    inRange? (if negative then -(n : Int) else n)

/-! ## Floating-point numbers -/

def digitCount (n : Nat) : Nat := (Decimal.ofNat n).length

/-- Whether `n` times ten to the power `e` rounds to infinity in 64 bits. The bound is the middle
    between the greatest finite number and the next power of two. -/
def overflows (n : Nat) (e : Int) : Bool :=
  let bound : Nat := 2 ^ 1024 - 2 ^ 970
  let top : Int := digitCount n + e
  if n = 0 ∨ top < 309 then false
  else if 309 < top then true
  else if 0 ≤ e then bound ≤ n * 10 ^ e.toNat
  else bound * 10 ^ (-e).toNat ≤ n

/-- The exponent that follows the digits of a number: none, or a mark, a sign and digits. -/
def exponent? : List Char → Option Int
  | [] => some 0
  | c :: cs =>
    if c = 'e' ∨ c = 'E' then do
      let (negative, cs) := splitSign cs
      let n ← Decimal.nat? (← ungroup? Decimal.isDigit cs)
      return if negative then -(n : Int) else n
    else none

def isFloat (cs : List Char) : Bool :=
  let (negative, cs) := splitSign cs
  if cs = ['i', 'n', 'f'] ∨ cs = ['n', 'a', 'n'] then true
  else
    let inNumber := fun c => Decimal.isDigit c || c = '_'
    let whole := cs.takeWhile inNumber
    let number? : Option (List Char × Int) :=
      match cs.dropWhile inNumber with
      | [] => none
      | '.' :: rest => do
        let fraction ← ungroup? Decimal.isDigit (rest.takeWhile inNumber)
        let e ← exponent? (rest.dropWhile inNumber)
        return ((← wholeDigits? whole) ++ fraction, e - fraction.length)
      | rest => do return (← wholeDigits? whole, ← exponent? rest)
    match number? with
    | none => false
    | some (ds, e) => negative || !overflows ((Decimal.nat? ds).getD 0) e

/-! ## Dates and times -/

def twoDigits? (a b : Char) : Option Nat := do
  return 10 * (← Decimal.digit? a) + (← Decimal.digit? b)

def daysOf (year month : Nat) : Nat :=
  if month = 2 then
    if year % 4 = 0 ∧ (year % 100 ≠ 0 ∨ year % 400 = 0) then 29 else 28
  else if month = 4 ∨ month = 6 ∨ month = 9 ∨ month = 11 then 30
  else 31

def splitDate? : List Char → Option (List Char)
  | y₁ :: y₂ :: y₃ :: y₄ :: '-' :: m₁ :: m₂ :: '-' :: d₁ :: d₂ :: rest => do
    let year := 100 * (← twoDigits? y₁ y₂) + (← twoDigits? y₃ y₄)
    let month ← twoDigits? m₁ m₂
    let day ← twoDigits? d₁ d₂
    if 1 ≤ month ∧ month ≤ 12 ∧ 1 ≤ day ∧ day ≤ daysOf year month then some rest else none
  | _ => none

/-- Splits a time of day off, with the fraction of its seconds. -/
def splitTime? : List Char → Option (List Char)
  | h₁ :: h₂ :: ':' :: m₁ :: m₂ :: ':' :: s₁ :: s₂ :: rest => do
    let hour ← twoDigits? h₁ h₂
    let minute ← twoDigits? m₁ m₂
    let second ← twoDigits? s₁ s₂
    if 23 < hour ∨ 59 < minute ∨ 60 < second then none
    else match rest with
      | '.' :: fraction =>
        if (fraction.takeWhile Decimal.isDigit).isEmpty then none
        else some (fraction.dropWhile Decimal.isDigit)
      | rest => some rest
  | _ => none

/-- Whether a text is empty or the offset of a time zone. -/
def isOffset : List Char → Bool
  | [] => true
  | ['Z'] => true
  | ['z'] => true
  | [sign, h₁, h₂, ':', m₁, m₂] =>
    (sign = '+' || sign = '-') && (twoDigits? h₁ h₂).any (· ≤ 23) && (twoDigits? m₁ m₂).any (· ≤ 59)
  | _ => false

/-- Whether a text writes a date, a time of day, or both with or without an offset. -/
def isMoment (cs : List Char) : Bool :=
  match splitDate? cs with
  | some [] => true
  | some (c :: rest) =>
    (c = 'T' || c = 't' || c = ' ') &&
      match splitTime? rest with
      | some offset => isOffset offset
      | none => false
  | none => splitTime? cs = some []

/-! ## Words -/

/-- The value that a text without quotes writes. -/
def scalar? (cs : List Char) : Option Value :=
  if cs = ['t', 'r', 'u', 'e'] then some (.boolean true)
  else if cs = ['f', 'a', 'l', 's', 'e'] then some (.boolean false)
  else if isMoment cs then some .moment
  else if isFloat cs then some .float
  else (integer? cs).map .integer

end ReplicaStore.Toml
