import ReplicaStore.Powers

/-! # Byte strings and little-endian numbers

    Keys, values, records and files are byte strings. Two of them compare with `<` byte by byte, and
    a proper beginning of a byte string is below it.

    Numbers inside records have a fixed width and their least significant byte first. Main
    statements: a number that fits its width reads back (`toNatLE_ofNatLE`), and so does a byte
    string (`ofNatLE_toNatLE`); the same pair for signed 64-bit numbers. -/

namespace ReplicaStore

abbrev Bytes := List UInt8

namespace Bytes

/-! ## Order -/

theorem lt_irrefl (a : Bytes) : ¬ a < a := List.lt_irrefl a

theorem lt_trans {a b c : Bytes} (hab : a < b) (hbc : b < c) : a < c := List.lt_trans hab hbc

theorem lt_asymm {a b : Bytes} (h : a < b) : ¬ b < a := List.lt_asymm h

theorem ne_of_lt {a b : Bytes} (h : a < b) : a ≠ b := fun e => lt_irrefl b (e ▸ h)

/-- Of two different byte strings one is below the other. -/
theorem lt_of_not_lt_of_ne {a b : Bytes} (h : ¬ a < b) (hne : a ≠ b) : b < a := by
  by_cases hba : b < a
  · exact hba
  · exact absurd (List.le_antisymm (List.not_lt.1 hba) (List.not_lt.1 h)) hne

/-- Byte strings with beginnings of one length compare by their beginnings first. -/
theorem append_lt_append_iff {a b c d : Bytes} (h : a.length = b.length) :
    a ++ c < b ++ d ↔ a < b ∨ (a = b ∧ c < d) := by
  induction a generalizing b with
  | nil =>
    obtain rfl := List.length_eq_zero_iff.1 h.symm
    simp
  | cons x a ih =>
    cases b with
    | nil => simp at h
    | cons y b =>
      have hlen : a.length = b.length := by simpa using h
      simp only [List.cons_append, List.cons_lt_cons_iff, ih hlen, List.cons.injEq]
      grind

/-! ## Unsigned numbers -/

/-- The number `n` in `width` bytes, least significant byte first. What does not fit is dropped. -/
def ofNatLE : (width : Nat) → (n : Nat) → Bytes
  | 0, _ => []
  | width + 1, n => UInt8.ofNat n :: ofNatLE width (n / 256)

/-- The number whose bytes are given, least significant byte first. -/
def toNatLE : Bytes → Nat
  | [] => 0
  | b :: bs => b.toNat + 256 * toNatLE bs

@[simp] theorem length_ofNatLE (width n : Nat) : (ofNatLE width n).length = width := by
  induction width generalizing n with
  | zero => rfl
  | succ width ih => simp [ofNatLE, ih]

theorem toNatLE_lt (bs : Bytes) : toNatLE bs < 256 ^ bs.length := by
  induction bs with
  | nil => simp [toNatLE]
  | cons b bs ih =>
    have hb : b.toNat < 256 := b.toNat_lt
    simp only [toNatLE, List.length_cons, Nat.pow_succ]
    omega

theorem toNatLE_ofNatLE_mod (width n : Nat) : toNatLE (ofNatLE width n) = n % 256 ^ width := by
  induction width generalizing n with
  | zero => simp [ofNatLE, toNatLE, Nat.mod_one]
  | succ width ih =>
    have hhead : (UInt8.ofNat n).toNat = n % 256 := UInt8.toNat_ofNat'
    rw [ofNatLE, toNatLE, ih, hhead, Nat.pow_succ, Nat.mul_comm (256 ^ width) 256, Nat.mod_mul]

/-- A number below the width's bound reads back. -/
theorem toNatLE_ofNatLE {width n : Nat} (h : n < 256 ^ width) : toNatLE (ofNatLE width n) = n := by
  rw [toNatLE_ofNatLE_mod, Nat.mod_eq_of_lt h]

/-- Every byte string is the one written for its number. -/
theorem ofNatLE_toNatLE (bs : Bytes) : ofNatLE bs.length (toNatLE bs) = bs := by
  induction bs with
  | nil => rfl
  | cons b bs ih =>
    have hb : b.toNat < 256 := b.toNat_lt
    -- The lowest byte is the remainder by 256, and the others are the quotient.
    have hdiv : (b.toNat + 256 * toNatLE bs) / 256 = toNatLE bs := by omega
    have hhead : UInt8.ofNat (b.toNat + 256 * toNatLE bs) = b := by
      apply UInt8.toNat_inj.1
      simp only [UInt8.toNat_ofNat']
      omega
    simp only [List.length_cons, toNatLE, ofNatLE, hdiv, hhead, ih]

/-! ## Signed numbers -/

/-- A signed 64-bit number in eight bytes, least significant byte first. -/
def ofInt64LE (t : Int64) : Bytes :=
  ofNatLE 8 t.toUInt64.toNat

/-- The signed 64-bit number whose eight bytes are given, least significant byte first. -/
def toInt64LE (bs : Bytes) : Int64 :=
  (UInt64.ofNat (toNatLE bs)).toInt64

@[simp] theorem length_ofInt64LE (t : Int64) : (ofInt64LE t).length = 8 := by
  simp [ofInt64LE]

@[simp] theorem toInt64LE_ofInt64LE (t : Int64) : toInt64LE (ofInt64LE t) = t := by
  have h : t.toUInt64.toNat < 256 ^ 8 := t.toUInt64.toNat_lt
  simp [toInt64LE, ofInt64LE, toNatLE_ofNatLE h]

theorem ofInt64LE_toInt64LE {bs : Bytes} (h : bs.length = 8) : ofInt64LE (toInt64LE bs) = bs := by
  have hlt : toNatLE bs < 2 ^ 64 := by simpa [h] using toNatLE_lt bs
  have hnat : (UInt64.ofNat (toNatLE bs)).toNat = toNatLE bs := by
    simpa [UInt64.toNat_ofNat'] using Nat.mod_eq_of_lt hlt
  have hwrite := ofNatLE_toNatLE bs
  rw [h] at hwrite
  simp [ofInt64LE, toInt64LE, hnat, hwrite]

end Bytes

end ReplicaStore
