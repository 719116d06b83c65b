import ReplicaStore.Text.Hex
import ReplicaStore.Text.Quoted
import ReplicaStore.Text.Utf8

/-! # Slot keys

    The engine addresses the record of a slot by a key of sixteen hexadecimal digits, most
    significant first, so that the order of the keys is the order of the slots. Keys are written in
    lower case and read in either case. The length of the log has a key of its own, below every slot
    key.

    Main statements: keys compare as their slots do (`ofSlot_lt_ofSlot_iff`), the length's key is
    below them (`lengthKey_lt_ofSlot`), and the text of a key reads back
    (`slot_of_encodeText_eq`). -/

namespace ReplicaStore.SlotKey

/-- The number of bytes of a slot key. -/
def width : Nat := 16

/-- The key of a slot. -/
def ofSlot (slot : Nat) : Bytes :=
  Hex.digits width slot

def lengthKey : Bytes :=
  Utf8.encodeText "#BINLOG_LENGTH#"

@[simp] theorem length_ofSlot (slot : Nat) : (ofSlot slot).length = 16 := by
  simp [ofSlot, width]

/-- The bound below which slots have keys of their own. -/
def slotBound : Nat := 16 ^ width

/-- Keys compare as their slots do. -/
theorem ofSlot_lt_ofSlot_iff {a b : Nat} (ha : a < slotBound) (hb : b < slotBound) :
    ofSlot a < ofSlot b ↔ a < b :=
  Hex.digits_lt_digits_iff ha hb

theorem ofSlot_inj {a b : Nat} (ha : a < slotBound) (hb : b < slotBound)
    (h : ofSlot a = ofSlot b) : a = b :=
  Hex.digits_inj ha hb h

/-- The key of the length is below every slot key. -/
theorem lengthKey_lt_ofSlot (slot : Nat) : lengthKey < ofSlot slot := by
  have hdigits : ∀ w n, ∃ d bs, Hex.digits (w + 1) n = d :: bs ∧ 0x30 ≤ d := by
    intro w
    induction w with
    | zero => exact fun n => ⟨_, [], rfl, Hex.le_digit (Nat.mod_lt _ (by decide))⟩
    | succ w ih =>
      intro n
      obtain ⟨d, bs, heq, hd⟩ := ih (n / 16)
      exact ⟨d, bs ++ [Hex.digit (n % 16)], by rw [Hex.digits, heq]; rfl, hd⟩
  obtain ⟨d, bs, heq, hd⟩ := hdigits 15 slot
  have hkey : ∃ rest, lengthKey = 0x23 :: rest := ⟨lengthKey.tail, by decide⟩
  obtain ⟨rest, hrest⟩ := hkey
  rw [hrest, ofSlot, width, heq, List.cons_lt_cons_iff]
  exact .inl (UInt8.lt_of_lt_of_le (by decide) hd)

/-! ## Reading -/

/-- Why a text is no slot key. -/
inductive Error where
  /-- The text takes `size` bytes. -/
  | wrongLength (key : String) (size : Nat)
  /-- The byte at `position` writes no digit. -/
  | notHex (key : String) (byte : UInt8) (position : Nat)
deriving DecidableEq, Repr

def Error.message : Error → String
  | .wrongLength key size => s!"index key '{key}' has length {size}, expected {width}"
  | .notHex key byte position =>
    let shown := Quoted.char (Char.ofNat byte.toNat)
    s!"index key '{key}' is not hex: Invalid character {shown} at position {position}"

/-- The number that digits write after the number `high`, or the first byte that is no digit with
    its position; the first of the digits stands at `position`. -/
def readDigits (position high : Nat) : Bytes → Except (UInt8 × Nat) Nat
  | [] => .ok high
  | b :: bs =>
    match Hex.value? b with
    | some n => readDigits (position + 1) (16 * high + n) bs
    | none => .error (b, position)

def slot (key : String) : Except Error Nat :=
  let bytes := Utf8.encodeText key
  if bytes.length ≠ width then .error (.wrongLength key bytes.length)
  else match readDigits 0 0 bytes with
    | .ok n => .ok n
    | .error (byte, position) => .error (.notHex key byte position)

theorem readDigits_append (position high : Nat) (as bs : Bytes) :
    readDigits position high (as ++ bs) =
      (readDigits position high as).bind fun n => readDigits (position + as.length) n bs := by
  induction as generalizing position high with
  | nil => rfl
  | cons b as ih =>
    rw [List.cons_append, readDigits, readDigits]
    cases Hex.value? b with
    | none => rfl
    | some n => simp only [ih, List.length_cons, Nat.add_assoc, Nat.add_comm 1]

/-- The digits of a number read back. -/
theorem readDigits_digits {width n : Nat} (h : n < 16 ^ width) (position high : Nat) :
    readDigits position high (Hex.digits width n) = .ok (high * 16 ^ width + n) := by
  induction width generalizing n with
  | zero =>
    simp only [Nat.pow_zero, Nat.lt_one_iff] at h
    simp [Hex.digits, readDigits, h]
  | succ width ih =>
    rw [Nat.pow_succ] at h
    -- The last digit is the remainder, read after the digits of the quotient.
    rw [Hex.digits, readDigits_append, ih (by omega)]
    have hdigit := Hex.value?_digit (Nat.mod_lt n (by decide : 16 > 0))
    simp only [Except.bind, readDigits, hdigit, Nat.pow_succ]
    congr 1
    rw [Nat.mul_add, Nat.mul_comm 16 (high * _), Nat.mul_assoc]
    omega

/-- The text of a key reads back. -/
theorem slot_of_encodeText_eq {key : String} {n : Nat} (hn : n < slotBound)
    (h : Utf8.encodeText key = ofSlot n) : slot key = .ok n := by
  have hlen : ¬ (ofSlot n).length ≠ width := by simp [width]
  rw [slot, h, if_neg hlen, ofSlot, readDigits_digits hn]
  simp

end ReplicaStore.SlotKey
