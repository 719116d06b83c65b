import ReplicaStore.Bytes

/-! # Hexadecimal digits

    Digits are written in lower case and read in either case. Main statements: a digit reads back
    (`value?_digit`), and numbers of one width compare as their digits do
    (`digits_lt_digits_iff`). -/

namespace ReplicaStore.Hex

/-- The byte that writes a digit, in lower case. -/
def digit (n : Nat) : UInt8 :=
  UInt8.ofNat (if n < 10 then 0x30 + n else 0x57 + n)

/-- The value of a byte that writes a digit, in either case. -/
def value? (b : UInt8) : Option Nat :=
  let n := b.toNat
  if 0x30 ≤ n ∧ n ≤ 0x39 then some (n - 0x30)
  else if 0x61 ≤ n ∧ n ≤ 0x66 then some (n - 0x57)
  else if 0x41 ≤ n ∧ n ≤ 0x46 then some (n - 0x37)
  else none

/-- The lowest `width` hexadecimal digits of a number, most significant first. -/
def digits : (width : Nat) → (n : Nat) → Bytes
  | 0, _ => []
  | width + 1, n => digits width (n / 16) ++ [digit (n % 16)]

@[simp] theorem length_digits (width n : Nat) : (digits width n).length = width := by
  induction width generalizing n with
  | zero => rfl
  | succ width ih => simp [digits, ih]

/-- A digit reads back. -/
theorem value?_digit {n : Nat} (h : n < 16) : value? (digit n) = some n := by
  have hall : ∀ n : Fin 16, value? (digit n) = some n.val := by decide
  exact hall ⟨n, h⟩

theorem digit_inj {m n : Nat} (hm : m < 16) (hn : n < 16) (h : digit m = digit n) : m = n := by
  have h := congrArg value? h
  rw [value?_digit hm, value?_digit hn] at h
  exact Option.some.inj h

theorem digit_lt_digit_iff {m n : Nat} (hm : m < 16) (hn : n < 16) : digit m < digit n ↔ m < n := by
  have hall : ∀ m n : Fin 16, digit m < digit n ↔ m.val < n.val := by decide
  exact hall ⟨m, hm⟩ ⟨n, hn⟩

/-- Every digit is at or above the digit zero. -/
theorem le_digit {n : Nat} (hn : n < 16) : 0x30 ≤ digit n := by
  have hall : ∀ n : Fin 16, 0x30 ≤ digit n := by decide
  exact hall ⟨n, hn⟩

/-- The digits of one width determine the number. -/
theorem digits_inj {width m n : Nat} (hm : m < 16 ^ width) (hn : n < 16 ^ width)
    (h : digits width m = digits width n) : m = n := by
  induction width generalizing m n with
  | zero =>
    simp only [Nat.pow_zero, Nat.lt_one_iff] at hm hn
    rw [hm, hn]
  | succ width ih =>
    rw [Nat.pow_succ] at hm hn
    obtain ⟨hinit, hlast⟩ := List.append_inj h (by simp)
    have hdiv := ih (by omega) (by omega) hinit
    have hmod := digit_inj (by omega) (by omega) (List.cons.inj hlast).1
    omega

/-- Numbers of one width compare as their digits do. -/
theorem digits_lt_digits_iff {width m n : Nat} (hm : m < 16 ^ width) (hn : n < 16 ^ width) :
    digits width m < digits width n ↔ m < n := by
  induction width generalizing m n with
  | zero =>
    simp only [Nat.pow_zero, Nat.lt_one_iff] at hm hn
    simp [hm, hn]
  | succ width ih =>
    rw [Nat.pow_succ] at hm hn
    have hlt := ih (m := m / 16) (n := n / 16) (by omega) (by omega)
    have heq : digits width (m / 16) = digits width (n / 16) ↔ m / 16 = n / 16 :=
      ⟨digits_inj (by omega) (by omega), fun h => by rw [h]⟩
    have hlast : [digit (m % 16)] < [digit (n % 16)] ↔ m % 16 < n % 16 := by
      simp [List.cons_lt_cons_iff, digit_lt_digit_iff (Nat.mod_lt m (by decide : 16 > 0))
        (Nat.mod_lt n (by decide : 16 > 0))]
    -- Digit strings of one width compare by the quotients first, and by the last digits where these
    -- agree.
    rw [digits, digits, Bytes.append_lt_append_iff (by simp), hlt, heq, hlast]
    omega

end ReplicaStore.Hex
