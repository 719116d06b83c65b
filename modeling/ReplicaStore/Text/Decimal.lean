import ReplicaStore.Powers

/-! # Decimal numbers

    Whole numbers as decimal digits. A number is written without leading zeros, a negative one with
    a minus sign. A reader takes leading zeros too, and the sign that its kind of number allows. -/

namespace ReplicaStore.Decimal

/-- The character of a digit. -/
def digit (n : Nat) : Char :=
  Char.ofNat (0x30 + n)

/-- The value of a character that writes a digit. -/
def digit? (c : Char) : Option Nat :=
  if 0x30 ≤ c.toNat ∧ c.toNat ≤ 0x39 then some (c.toNat - 0x30) else none

def isDigit (c : Char) : Bool :=
  (digit? c).isSome

/-- The digits of a number, most significant first. -/
def ofNat (n : Nat) : List Char :=
  if n < 10 then [digit n] else ofNat (n / 10) ++ [digit (n % 10)]
termination_by n

/-- A number with its sign, where it is negative. -/
def ofInt (z : Int) : List Char :=
  if z < 0 then '-' :: ofNat z.natAbs else ofNat z.natAbs

/-- The number that digits write after the number `high`. -/
def readDigits (high : Nat) : List Char → Option Nat
  | [] => some high
  | c :: cs => (digit? c).bind fun n => readDigits (10 * high + n) cs

/-- The number that one or more digits write. -/
def nat? : List Char → Option Nat
  | [] => none
  | cs => readDigits 0 cs

/-- A number that may have a plus sign before it. -/
def unsigned? : List Char → Option Nat
  | '+' :: cs => nat? cs
  | cs => nat? cs

/-- A number that may have a sign before it. -/
def signed? : List Char → Option Int
  | '-' :: cs => (nat? cs).map fun n => -(n : Int)
  | cs => (unsigned? cs).map fun n => (n : Int)

def int64? (s : String) : Option Int64 :=
  (signed? s.toList).bind fun z =>
    if -2 ^ 63 ≤ z ∧ z < 2 ^ 63 then some (Int64.ofInt z) else none

def uint64? (s : String) : Option Nat :=
  (unsigned? s.toList).bind fun n => if n < 2 ^ 64 then some n else none

theorem digit?_digit {n : Nat} (h : n < 10) : digit? (digit n) = some n := by
  have hall : ∀ n : Fin 10, digit? (digit n) = some n.val := by decide
  exact hall ⟨n, h⟩

theorem readDigits_append (high : Nat) (cs ds : List Char) :
    readDigits high (cs ++ ds) = (readDigits high cs).bind fun n => readDigits n ds := by
  induction cs generalizing high with
  | nil => rfl
  | cons c cs ih =>
    cases h : digit? c with
    | none => simp [readDigits, h]
    | some n => simp [readDigits, h, ih]

theorem ofNat_ne_nil (n : Nat) : ofNat n ≠ [] := by
  unfold ofNat
  split <;> simp

/-- The digits of a number read back. -/
theorem readDigits_ofNat (n : Nat) : readDigits 0 (ofNat n) = some n := by
  fun_induction ofNat n with
  | case1 n h => simp [readDigits, digit?_digit h]
  | case2 n h ih =>
    have hd : n % 10 < 10 := Nat.mod_lt _ (by decide)
    simp only [readDigits_append, ih, Option.bind_some, readDigits, digit?_digit hd]
    congr 1
    omega

@[simp] theorem nat?_ofNat (n : Nat) : nat? (ofNat n) = some n := by
  have h := readDigits_ofNat n
  cases hc : ofNat n with
  | nil => exact absurd hc (ofNat_ne_nil n)
  | cons c cs => rw [hc] at h; exact h

end ReplicaStore.Decimal
