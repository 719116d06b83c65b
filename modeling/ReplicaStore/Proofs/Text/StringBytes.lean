import ReplicaStore.Text.Utf8.Lemmas

/-! # The bytes of a string

    A string keeps its characters in UTF-8. The bytes that are written for a text are the ones that
    its string keeps, and the byte strings that read as a text are the ones that a string can keep.

    * `encodeText_eq`, `length_encodeText`: what is written for a text, and how long it is.
    * `decodeText_eq_error_iff`: what is refused is what is not valid UTF-8. -/

namespace ReplicaStore.Utf8

/-- The bytes of a character are the standard ones. -/
theorem encodeChar_eq (c : Char) : encodeChar c = String.utf8EncodeChar c := by
  have hrange := toNat_range c
  have hval : c.val.toNat = c.toNat := rfl
  simp only [encodeChar, String.utf8EncodeChar, hval, ← Nat.lt_add_one_iff, Nat.reduceAdd]
  generalize c.toNat = n at hrange
  -- Both cut at the same numbers now; no lead byte of a character has a bit too many.
  by_cases h1 : n < 0x80
  · simp only [if_pos h1]
  · by_cases h2 : n < 0x800
    · have hlead : n / 64 % 0x20 = n / 64 := by omega
      simp only [if_neg h1, if_pos h2, hlead, Nat.add_comm]
    · by_cases h3 : n < 0x10000
      · have hlead : n / 4096 % 0x10 = n / 4096 := by omega
        simp only [if_neg h1, if_neg h2, if_pos h3, hlead, Nat.add_comm]
      · have hlead : n / 262144 % 0x08 = n / 262144 := by omega
        simp only [if_neg h1, if_neg h2, if_neg h3, hlead, Nat.add_comm]

theorem toByteArray_encode (cs : List Char) : (encode cs).toByteArray = cs.utf8Encode := by
  unfold encode List.utf8Encode
  rw [funext encodeChar_eq]

/-- What is written for a text are the bytes of its string. -/
theorem toByteArray_encodeText (s : String) : (encodeText s).toByteArray = s.toByteArray := by
  rw [encodeText, toByteArray_encode, String.utf8Encode_toList]

theorem encodeText_eq (s : String) : encodeText s = s.toByteArray.data.toList := by
  rw [← toByteArray_encodeText, List.toList_data_toByteArray]

theorem length_encodeText (s : String) : (encodeText s).length = s.utf8ByteSize := by
  rw [← String.size_toByteArray, ← toByteArray_encodeText, List.size_toByteArray]

/-- A byte string is no text exactly if it is not valid UTF-8. -/
theorem decodeText_eq_error_iff {bs : Bytes} :
    (∃ fault, decodeText bs = .error fault) ↔ ¬ bs.toByteArray.IsValidUTF8 := by
  constructor
  · rintro ⟨fault, hfault⟩ ⟨cs, hcs⟩
    have hbytes : encode cs = bs := by
      have h := congrArg (fun b => b.data.toList) ((toByteArray_encode cs).trans hcs.symm)
      simpa only [List.toList_data_toByteArray] using h
    have hread : decodeText bs = .ok (String.ofList cs) := by
      rw [decodeText, ← hbytes, decode_encode]
      rfl
    rw [hfault] at hread
    cases hread
  · intro hinvalid
    cases hread : decodeText bs with
    | error fault => exact ⟨fault, rfl⟩
    | ok s =>
      refine absurd ?_ hinvalid
      rw [← encodeText_of_decodeText hread, toByteArray_encodeText]
      exact s.isValidUTF8

end ReplicaStore.Utf8
