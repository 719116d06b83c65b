import Mathlib.Data.Nat.Digits.Lemmas
import ReplicaStore.Proofs.Log.Recovery

/-! # Slot keys and their texts

    The keys of slots keep the order of the slots, over the whole range of the 64-bit numbers, and
    the length's key is below all of them. Read as a text, a key may be written in either case; a
    text is a key exactly if it has sixteen hexadecimal characters, and then it is the key of the
    slot whose key is the text in lower case. Every other text is refused as damage: one of another
    length, one with another character in it, and one whose characters take more bytes than one.

    * `Hex.digits_ofDigits`: digits write the number that they are the digits of.
    * `IsKeyText`: sixteen hexadecimal characters.
    * `slot_eq_ok_iff_isKeyText`: such a text, and no other, is read, as the slot of its key.
    * `keys_embed_and_read`: the order of keys, and what is read as one. -/

namespace ReplicaStore

/-! ## Digits and characters -/

namespace Hex

/-- The characters that write a digit, in either case. -/
def characters : List Char := "0123456789abcdefABCDEF".toList

/-- A character writes a digit in one byte, and in lower case it is the byte that is written for the
    digit. -/
theorem exists_digit_of_mem_characters {c : Char} (h : c ∈ characters) :
    ∃ d < 16, (Utf8.encodeChar c).map value? = [some d] ∧
      Utf8.encodeChar c.toLower = [digit d] := by
  -- Decided for the members of the list, one by one; all characters would be far too many.
  have hall : characters.all (fun c => decide (∃ d : Nat, d < 16 ∧
      (Utf8.encodeChar c).map value? = [some d] ∧
      Utf8.encodeChar c.toLower = [digit d])) = true := by decide
  exact of_decide_eq_true (List.all_eq_true.1 hall c h)

/-- A byte that reads as a digit is one of these characters. -/
theorem ofNat_mem_characters {b : UInt8} {d : Nat} (h : value? b = some d) :
    Char.ofNat b.toNat ∈ characters := by
  have hall : ∀ n : Fin 256, (value? (UInt8.ofNat n)).isSome →
      Char.ofNat (UInt8.ofNat n).toNat ∈ characters := by decide +kernel
  have hsome : (value? b).isSome := Option.isSome_of_eq_some h
  have hbyte := hall ⟨b.toNat, b.toNat_lt⟩
  rw [UInt8.ofNat_toNat] at hbyte
  exact hbyte hsome

/-- Such characters have digits, which they write in either case. -/
theorem exists_digits_of_characters {cs : List Char} (h : ∀ c ∈ cs, c ∈ characters) :
    ∃ ds : List Nat, (∀ d ∈ ds, d < 16) ∧ ds.length = cs.length ∧
      (Utf8.encode cs).map value? = ds.map some ∧
      Utf8.encode (cs.map Char.toLower) = ds.map digit := by
  induction cs with
  | nil => exact ⟨[], fun _ hd => absurd hd List.not_mem_nil, rfl, rfl, rfl⟩
  | cons c cs ih =>
    obtain ⟨hc, hcs⟩ := List.forall_mem_cons.1 h
    obtain ⟨d, hd, hvalue, hlower⟩ := exists_digit_of_mem_characters hc
    obtain ⟨ds, hds, hlength, hvalues, hlowers⟩ := ih hcs
    refine ⟨d :: ds, List.forall_mem_cons.2 ⟨hd, hds⟩, congrArg (· + 1) hlength, ?_, ?_⟩
    · rw [Utf8.encode_cons, List.map_append, hvalue, hvalues]
      rfl
    · rw [List.map_cons, Utf8.encode_cons, hlower, hlowers]
      rfl

/-- Digits are the ones that are written for their number. -/
theorem digits_ofDigits {ds : List Nat} (h : ∀ d ∈ ds, d < 16) :
    digits ds.length (Nat.ofDigits 16 ds.reverse) = ds.map digit := by
  -- By induction from the end: the last digit is what the number leaves when it is divided.
  induction ds using List.reverseRecOn with
  | nil => rfl
  | append_singleton ds d ih =>
    obtain ⟨hds, hd⟩ := List.forall_mem_append.1 h
    have hlast : d < 16 := hd d (List.mem_singleton_self d)
    rw [List.length_append, List.length_singleton, List.reverse_append, List.reverse_singleton,
      List.singleton_append, Nat.ofDigits_cons, List.map_append, digits]
    have hquotient : (d + 16 * Nat.ofDigits 16 ds.reverse) / 16 = Nat.ofDigits 16 ds.reverse := by
      omega
    have hremainder : (d + 16 * Nat.ofDigits 16 ds.reverse) % 16 = d := by
      omega
    simp only [hquotient, hremainder, ih hds, List.map_cons, List.map_nil]

end Hex

namespace SlotKey

/-! ## Texts of keys -/

/-- Whether a text is sixteen hexadecimal characters. -/
structure IsKeyText (key : String) : Prop where
  length : key.length = 16
  hex : ∀ c ∈ key.toList, c ∈ Hex.characters

variable {key : String} {n : Nat}

theorem encodeText_toLower (key : String) :
    Utf8.encodeText key.toLower = Utf8.encode (key.toList.map Char.toLower) := by
  show Utf8.encode (key.map Char.toLower).toList = _
  rw [String.toList_map]

/-- Sixteen hexadecimal characters are read as a slot, and are the slot's key in lower case. -/
theorem IsKeyText.exists_slot (h : IsKeyText key) :
    ∃ n < slotBound, slot key = .ok n ∧ Utf8.encodeText key.toLower = ofSlot n := by
  obtain ⟨ds, hds, hlength, hvalues, hlowers⟩ := Hex.exists_digits_of_characters h.hex
  have hwidth : ds.length = width := by
    rw [hlength, String.length_toList, h.length, width]
  refine ⟨Nat.ofDigits 16 ds.reverse, ?_, ?_, ?_⟩
  · have hlt := Nat.ofDigits_lt_base_pow_length (b := 16) (l := ds.reverse) (by decide)
      (by simpa using hds)
    rw [List.length_reverse, hwidth] at hlt
    exact hlt
  · have hbytes : (Utf8.encodeText key).length = width := by
      have hmapped := congrArg List.length hvalues
      rw [List.length_map, List.length_map, hwidth] at hmapped
      exact hmapped
    exact slot_eq_ok_iff.2 ⟨hbytes, ds, hvalues, rfl⟩
  · rw [encodeText_toLower, hlowers, ofSlot, ← hwidth, Hex.digits_ofDigits hds]

/-- What is read as a slot is sixteen hexadecimal characters. -/
theorem isKeyText_of_slot (h : slot key = .ok n) : IsKeyText key := by
  obtain ⟨hwidth, hwrites⟩ := slot_eq_ok_iff.1 h
  -- Bytes that read as digits are characters by themselves, so the text has one for each of them.
  have hchars : key.toList = (Utf8.encodeText key).map fun b => Char.ofNat b.toNat := by
    have hread := Utf8.decode_eq_ok_iff.2 (encode_ofBytes hwrites.toNat_lt)
    have hwritten : Utf8.decode (Utf8.encodeText key) = .ok key.toList := Utf8.decode_encode _
    exact Except.ok.inj (hwritten.symm.trans hread)
  refine ⟨?_, ?_⟩
  · rw [← String.length_toList, hchars, List.length_map, hwidth, width]
  · intro c hc
    rw [hchars] at hc
    obtain ⟨b, hb, rfl⟩ := List.mem_map.1 hc
    obtain ⟨ds, hds, -⟩ := hwrites
    have hvalue : Hex.value? b ∈ ds.map some := hds ▸ List.mem_map_of_mem hb
    obtain ⟨d, -, hd⟩ := List.mem_map.1 hvalue
    exact Hex.ofNat_mem_characters hd.symm

/-- A text is read as a slot exactly if it is sixteen hexadecimal characters and, in lower case, the
    key of the slot. -/
theorem slot_eq_ok_iff_isKeyText (hn : n < slotBound) :
    slot key = .ok n ↔ IsKeyText key ∧ Utf8.encodeText key.toLower = ofSlot n := by
  constructor
  · intro h
    have hkey := isKeyText_of_slot h
    obtain ⟨m, -, hslot, hlower⟩ := hkey.exists_slot
    rw [h, Except.ok.injEq] at hslot
    rw [hslot]
    exact ⟨hkey, hlower⟩
  · rintro ⟨hkey, hlower⟩
    obtain ⟨m, hm, hslot, hlower'⟩ := hkey.exists_slot
    rw [hslot, ofSlot_inj hn hm (hlower.symm.trans hlower')]

/-- Slots of the whole 64-bit range: their keys compare as the slots do and have sixteen bytes, and
    the length's key is below them. A text is read as a slot exactly if it is sixteen hexadecimal
    characters that are the slot's key in lower case; each such text is the key of one slot, and
    every other text is refused as damage. -/
theorem keys_embed_and_read :
    (∀ a b : UInt64, a < b ↔ ofSlot a.toNat < ofSlot b.toNat) ∧
      (∀ a : UInt64, (ofSlot a.toNat).length = 16 ∧ lengthKey < ofSlot a.toNat) ∧
      ∀ key : String,
        (∀ i : UInt64, slot key = .ok i.toNat ↔
          IsKeyText key ∧ Utf8.encodeText key.toLower = ofSlot i.toNat) ∧
        (IsKeyText key → ∃ i : UInt64, slot key = .ok i.toNat) ∧
        (¬ IsKeyText key → ∃ e, slot key = .error e ∧
          (ReplicaStore.Error.slotKey e).kind = .dataLoss) := by
  have hbound : ∀ a : UInt64, a.toNat < slotBound := fun a => a.toNat_lt
  refine ⟨?_, ?_, ?_⟩
  · intro a b
    rw [ofSlot_lt_ofSlot_iff (hbound a) (hbound b), UInt64.lt_iff_toNat_lt]
  · intro a
    exact ⟨length_ofSlot a.toNat, lengthKey_lt_ofSlot a.toNat⟩
  · intro key
    refine ⟨fun i => slot_eq_ok_iff_isKeyText (hbound i), ?_, ?_⟩
    · intro hkey
      obtain ⟨n, hn, hslot, -⟩ := hkey.exists_slot
      refine ⟨UInt64.ofNat n, ?_⟩
      rw [hslot, UInt64.toNat_ofNat_of_lt' hn]
    · intro hkey
      cases hslot : slot key with
      | ok n => exact absurd (isKeyText_of_slot hslot) hkey
      | error e => exact ⟨e, rfl, rfl⟩

/-- A key in mixed case is read. Fifteen characters that take sixteen bytes are none. -/
theorem mixed_case_read_and_accent_refused :
    IsKeyText "00000000000000fF" ∧ slot "00000000000000fF" = .ok 255 ∧
      ¬ IsKeyText "00000000000000é" ∧ (Utf8.encodeText "00000000000000é").length = 16 ∧
      ∃ e, slot "00000000000000é" = .error e ∧
        (ReplicaStore.Error.slotKey e).kind = .dataLoss := by
  obtain ⟨-, -, hread⟩ := keys_embed_and_read
  have hhex : "00000000000000fF".toList.all (· ∈ Hex.characters) = true := by decide
  have hmixed : IsKeyText "00000000000000fF" :=
    ⟨by decide, fun c hc => of_decide_eq_true (List.all_eq_true.1 hhex c hc)⟩
  have haccent : ¬ IsKeyText "00000000000000é" := by
    intro hkey
    exact absurd hkey.length (by decide)
  refine ⟨hmixed, ?_, haccent, by decide, (hread _).2.2 haccent⟩
  have hlower : Utf8.encodeText "00000000000000fF".toLower = ofSlot 255 := by
    rw [encodeText_toLower]
    decide
  exact ((hread "00000000000000fF").1 255).2 ⟨hmixed, hlower⟩

end SlotKey

end ReplicaStore
