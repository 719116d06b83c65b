import ReplicaStore.Log.Basic
import ReplicaStore.Proofs.Action
import ReplicaStore.Text.Utf8.Lemmas

/-! # Records and lengths read back

    What the log writes under its keys, it reads: the record of an entry is the entry again, and
    the length record is the length. -/

namespace ReplicaStore

open Record

/-! ## Records -/

/-- Whether a record can hold a field. -/
def FieldFits (s : String) : Prop :=
  (Utf8.encodeText s).length < fieldLimit

instance (s : String) : Decidable (FieldFits s) :=
  inferInstanceAs (Decidable (_ < _))

structure Entry.Fits (e : Entry) : Prop where
  user : FieldFits e.user
  key : FieldFits e.key
  value : FieldFits e.value

instance (e : Entry) : Decidable e.Fits :=
  decidable_of_iff (FieldFits e.user ∧ FieldFits e.key ∧ FieldFits e.value)
    ⟨fun ⟨user, key, value⟩ => ⟨user, key, value⟩, fun ⟨user, key, value⟩ => ⟨user, key, value⟩⟩

namespace Record

/-- The bytes of a field that fits. -/
def fieldBytes (s : String) : Bytes :=
  Bytes.ofNatLE 4 (Utf8.encodeText s).length ++ Utf8.encodeText s

theorem encodeField_eq_ok {s : String} (h : FieldFits s) (field : Field) :
    encodeField field s = .ok (fieldBytes s) :=
  if_pos h

theorem length_fieldBytes (s : String) :
    (fieldBytes s).length = 4 + (Utf8.encodeText s).length := by
  rw [fieldBytes, List.length_append, Bytes.length_ofNatLE]

/-- A field is read off the front, whatever follows it. -/
theorem decodeField_fieldBytes_append {s : String} (h : FieldFits s) (field : Field)
    (rest : Bytes) : decodeField field (fieldBytes s ++ rest) = .ok (s, rest) := by
  have hsize : Bytes.toNatLE (Bytes.ofNatLE 4 (Utf8.encodeText s).length) =
      (Utf8.encodeText s).length := by
    apply Bytes.toNatLE_ofNatLE
    exact Nat.lt_trans h (by decide)
  have hhead : (fieldBytes s ++ rest).take 4 = Bytes.ofNatLE 4 (Utf8.encodeText s).length := by
    rw [fieldBytes, List.append_assoc]
    exact List.take_left' (Bytes.length_ofNatLE 4 _)
  have htail : (fieldBytes s ++ rest).drop 4 = Utf8.encodeText s ++ rest := by
    rw [fieldBytes, List.append_assoc]
    exact List.drop_left' (Bytes.length_ofNatLE 4 _)
  have hlong : ¬ (fieldBytes s ++ rest).length < 4 := by
    rw [List.length_append, length_fieldBytes]
    omega
  have henough : ¬ (Utf8.encodeText s ++ rest).length < (Utf8.encodeText s).length := by
    rw [List.length_append]
    omega
  unfold decodeField
  rw [if_neg hlong]
  simp only [hhead, htail, hsize]
  rw [if_neg (Nat.not_le.2 h), if_neg henough, List.take_left, List.drop_left,
    Utf8.decodeText_encodeText]

/-- The record of an entry that fits. -/
def bytesOf (e : Entry) : Bytes :=
  e.operation.opcode ::
    (fieldBytes e.user ++ fieldBytes e.key ++ fieldBytes e.value ++ Bytes.ofInt64LE e.term)

theorem encode_eq_ok {e : Entry} (h : e.Fits) : encode e = .ok (bytesOf e) := by
  unfold encode
  rw [encodeField_eq_ok h.user, ok_bind, encodeField_eq_ok h.key, ok_bind,
    encodeField_eq_ok h.value, ok_bind]
  rfl

theorem mapM_encode_eq_ok {entries : List Entry} (h : ∀ e ∈ entries, e.Fits) :
    entries.mapM encode = .ok (entries.map bytesOf) := by
  induction entries with
  | nil => rfl
  | cons e entries ih =>
    have hrest := ih (fun e he => h e (by simp [he]))
    rw [List.mapM_cons, encode_eq_ok (h e (by simp)), ok_bind, hrest, ok_bind]
    rfl

theorem fits_of_encodeField {s : String} {field : Field} {bs : Bytes}
    (h : encodeField field s = .ok bs) : FieldFits s := by
  unfold encodeField at h
  simp only at h
  split at h
  · assumption
  · cases h

/-- What was written, a record can hold. -/
theorem fits_of_encode {e : Entry} {bs : Bytes} (h : encode e = .ok bs) : e.Fits := by
  unfold encode at h
  obtain ⟨user, huser, h⟩ := exists_of_bind_eq_ok h
  obtain ⟨key, hkey, h⟩ := exists_of_bind_eq_ok h
  obtain ⟨value, hvalue, h⟩ := exists_of_bind_eq_ok h
  exact ⟨fits_of_encodeField huser, fits_of_encodeField hkey, fits_of_encodeField hvalue⟩

theorem fits_of_mapM_encode {entries : List Entry} {records : List Bytes}
    (h : entries.mapM encode = .ok records) : ∀ e ∈ entries, e.Fits := by
  induction entries generalizing records with
  | nil =>
    intro e he
    cases he
  | cons e entries ih =>
    rw [List.mapM_cons] at h
    obtain ⟨bs, hencode, h⟩ := exists_of_bind_eq_ok h
    obtain ⟨rest, hrest, h⟩ := exists_of_bind_eq_ok h
    intro e' he'
    rcases List.mem_cons.1 he' with rfl | htail
    · exact fits_of_encode hencode
    · exact ih hrest e' htail

/-- The record of an entry reads back. -/
theorem decode_bytesOf {e : Entry} (h : e.Fits) : decode (bytesOf e) = .ok e := by
  have hlong : ¬ (bytesOf e).length < minSize := by
    simp only [bytesOf, List.length_cons, List.length_append, length_fieldBytes,
      Bytes.length_ofInt64LE, minSize]
    omega
  have hterm : ¬ (Bytes.ofInt64LE e.term).length ≠ 8 := by
    simp
  have hopcode : decodeOperation e.operation.opcode = .ok e.operation := by
    simp [decodeOperation]
  unfold decode
  simp only [bytesOf] at hlong ⊢
  rw [if_neg hlong]
  simp only [List.append_assoc, hopcode, decodeField_fieldBytes_append h.user,
    decodeField_fieldBytes_append h.key, decodeField_fieldBytes_append h.value, ok_bind,
    if_neg hterm, Bytes.toInt64LE_ofInt64LE]
  rfl

end Record

/-! ## Lengths -/

namespace SlotKey

/-- Bytes below 128 are the characters of their numbers. -/
theorem encode_ofBytes {bs : Bytes} (h : ∀ b ∈ bs, b.toNat < 0x80) :
    Utf8.encode (bs.map fun b => Char.ofNat b.toNat) = bs := by
  induction bs with
  | nil => rfl
  | cons b bs ih =>
    have hb : b.toNat < 0x80 := h b (by simp)
    have hchar : (Char.ofNat b.toNat).toNat = b.toNat :=
      Utf8.toNat_ofNat_char (.inl (by omega))
    rw [List.map_cons, Utf8.encode_cons, ih (fun b' hb' => h b' (by simp [hb']))]
    simp [Utf8.encodeChar, hchar, hb]

/-- Bytes below 128 are a text. -/
theorem exists_encode_eq {bs : Bytes} (h : ∀ b ∈ bs, b.toNat < 0x80) :
    ∃ cs, Utf8.encode cs = bs :=
  ⟨_, encode_ofBytes h⟩

theorem toNat_digit_lt {n : Nat} (h : n < 16) : (Hex.digit n).toNat < 0x80 := by
  have hall : ∀ n : Fin 16, (Hex.digit n).toNat < 0x80 := by decide
  exact hall ⟨n, h⟩

theorem toNat_lt_of_mem_digits {width n : Nat} {b : UInt8} (h : b ∈ Hex.digits width n) :
    b.toNat < 0x80 := by
  -- The last digit is split off, and the digits before it are those of a smaller number.
  induction width generalizing n with
  | zero => simp [Hex.digits] at h
  | succ width ih =>
    rw [Hex.digits] at h
    rcases List.mem_append.1 h with hinit | hlast
    · exact ih hinit
    · rw [List.mem_singleton.1 hlast]
      exact toNat_digit_lt (Nat.mod_lt n (by decide))

/-- Every slot key is a text. -/
theorem exists_encodeText_eq (n : Nat) : ∃ key, Utf8.encodeText key = ofSlot n := by
  have hdigits : ∀ b ∈ ofSlot n, b.toNat < 0x80 := fun _ hb => toNat_lt_of_mem_digits hb
  obtain ⟨cs, hcs⟩ := exists_encode_eq hdigits
  refine ⟨String.ofList cs, ?_⟩
  rw [Utf8.encodeText, String.toList_ofList, hcs]

end SlotKey

/-- The length record reads back. -/
theorem OperationLog.readLength_ofSlot {length : Nat} (h : length ≤ maxLength) :
    readLength (SlotKey.ofSlot length) = .ok length := by
  -- The length is read as a text and then as a slot, so the key has to be a text first.
  obtain ⟨key, hkey⟩ := SlotKey.exists_encodeText_eq length
  have hbound : length < SlotKey.slotBound := Nat.lt_of_le_of_lt h (by decide)
  have hslot := SlotKey.slot_of_encodeText_eq hbound hkey
  unfold readLength
  rw [← hkey, Utf8.decodeText_encodeText]
  simp only [mapError_ok, ok_bind, hslot]
  rw [if_neg (Nat.not_lt.2 h)]
  rfl

end ReplicaStore
