import ReplicaStore.Error
import ReplicaStore.Proofs.Log.ReadBack

/-! # Records are canonical

    A byte string is the record of at most one entry, and an entry has one record at most. The
    reader takes a byte string apart from its front; what it accepts it has gone over byte by byte,
    so it accepts what is written and nothing else. Each field says how long it is, so no record is
    the beginning of another one.

    * `eq_bytesOf_of_decode`: what reads as an entry is the record of the entry.
    * `bytesOf_append_eq`: a record that starts like another one is that one.
    * `watch_eq`: reading never needs a byte behind the end.
    * `canonical`: reading and writing undo each other. -/

namespace ReplicaStore.Record

variable {bs rest : Bytes} {e e' : Entry} {field : Field} {s s' : String}

/-! ## What is accepted -/

/-- A field that is read off the front is the field that is written for its text. -/
theorem eq_fieldBytes_append_of_decodeField (h : decodeField field bs = .ok (s, rest)) :
    FieldFits s ∧ bs = fieldBytes s ++ rest := by
  unfold decodeField at h
  split at h
  · cases h
  rename_i hlength
  simp only at h
  split at h
  · cases h
  rename_i hlimit
  split at h
  · cases h
  rename_i henough
  split at h
  · rename_i text htext
    cases h
    have hbytes := Utf8.encodeText_of_decodeText htext
    have hsize : (Utf8.encodeText s).length = Bytes.toNatLE (bs.take 4) := by
      rw [hbytes, List.length_take]
      omega
    have hfour : (bs.take 4).length = 4 := by
      rw [List.length_take]
      omega
    have hhead : Bytes.ofNatLE 4 (Bytes.toNatLE (bs.take 4)) = bs.take 4 := by
      have hwrite := Bytes.ofNatLE_toNatLE (bs.take 4)
      rw [hfour] at hwrite
      exact hwrite
    refine ⟨?_, ?_⟩
    · rw [FieldFits, hsize]
      exact Nat.not_le.1 hlimit
    · calc bs = bs.take 4 ++ bs.drop 4 := (List.take_append_drop 4 bs).symm
        _ = bs.take 4 ++ ((bs.drop 4).take (Bytes.toNatLE (bs.take 4)) ++
              (bs.drop 4).drop (Bytes.toNatLE (bs.take 4))) :=
          congrArg (bs.take 4 ++ ·) (List.take_append_drop _ _).symm
        _ = fieldBytes s ++ (bs.drop 4).drop (Bytes.toNatLE (bs.take 4)) := by
          rw [fieldBytes, hsize, hhead, hbytes, List.append_assoc]
  · cases h

theorem opcode_of_decodeOperation {b : UInt8} {op : Operation} (h : decodeOperation b = .ok op) :
    b = op.opcode := by
  unfold decodeOperation at h
  split at h
  · rename_i hop
    cases h
    exact Operation.ofOpcode?_eq_some_iff.1 hop
  · cases h

/-- What reads as an entry is the record of the entry. -/
theorem eq_bytesOf_of_decode (h : decode bs = .ok e) : e.Fits ∧ bs = bytesOf e := by
  unfold decode at h
  cases bs with
  | nil => cases h
  | cons b tail =>
    simp only at h
    split at h
    · cases h
    obtain ⟨operation, hoperation, h⟩ := exists_of_bind_eq_ok h
    obtain ⟨⟨user, afterUser⟩, huser, h⟩ := exists_of_bind_eq_ok h
    obtain ⟨⟨key, afterKey⟩, hkey, h⟩ := exists_of_bind_eq_ok h
    obtain ⟨⟨value, afterValue⟩, hvalue, h⟩ := exists_of_bind_eq_ok h
    -- Each read tells what stood in front of it, so the record is put together from its end.
    simp only at huser hkey hvalue h
    split at h
    · cases h
    rename_i hterm
    cases h
    obtain ⟨hfitsUser, huser⟩ := eq_fieldBytes_append_of_decodeField huser
    obtain ⟨hfitsKey, hkey⟩ := eq_fieldBytes_append_of_decodeField hkey
    obtain ⟨hfitsValue, hvalue⟩ := eq_fieldBytes_append_of_decodeField hvalue
    have hopcode := opcode_of_decodeOperation hoperation
    -- The term is read of eight bytes, no more and no less, so writing it gives them back.
    have hwritten := Bytes.ofInt64LE_toInt64LE (Decidable.not_not.1 hterm)
    refine ⟨⟨hfitsUser, hfitsKey, hfitsValue⟩, ?_⟩
    simp only [bytesOf, hwritten, hopcode, huser, hkey, hvalue, List.append_assoc]

/-- A byte string reads as an entry exactly if it is written for the entry. -/
theorem decode_eq_ok_iff : decode bs = .ok e ↔ encode e = .ok bs := by
  constructor
  · intro h
    obtain ⟨hfits, rfl⟩ := eq_bytesOf_of_decode h
    exact encode_eq_ok hfits
  · intro h
    -- Only an entry that fits is written at all.
    have hfits := fits_of_encode h
    rw [encode_eq_ok hfits, Except.ok.injEq] at h
    subst h
    exact decode_bytesOf hfits

theorem length_bytesOf (e : Entry) : (bytesOf e).length = encodedLength e := by
  simp only [bytesOf, encodedLength, minSize, List.length_cons, List.length_append,
    length_fieldBytes, Bytes.length_ofInt64LE]
  omega

/-! ## Where a record ends -/

variable {rest' : Bytes}

/-- A field tells where it ends. -/
theorem fieldBytes_append_inj (hs : FieldFits s) (hs' : FieldFits s')
    (h : fieldBytes s ++ rest = fieldBytes s' ++ rest') : s = s' ∧ rest = rest' := by
  -- Both texts are read off the same bytes, so they are one.
  have hread := decodeField_fieldBytes_append hs .user rest
  rw [h, decodeField_fieldBytes_append hs' .user rest', Except.ok.injEq, Prod.mk.injEq] at hread
  exact ⟨hread.1.symm, hread.2.symm⟩

/-- A record that starts with a record is that one, and nothing follows. -/
theorem bytesOf_append_eq (he : e.Fits) (he' : e'.Fits) (h : bytesOf e ++ rest = bytesOf e') :
    rest = [] := by
  simp only [bytesOf, List.cons_append, List.append_assoc, List.cons.injEq] at h
  obtain ⟨-, h⟩ := h
  obtain ⟨-, h⟩ := fieldBytes_append_inj he.user he'.user h
  obtain ⟨-, h⟩ := fieldBytes_append_inj he.key he'.key h
  obtain ⟨-, h⟩ := fieldBytes_append_inj he.value he'.value h
  -- Both terms take eight bytes, so nothing is left behind the first one.
  have hlength := congrArg List.length h
  simp only [List.length_append, Bytes.length_ofInt64LE] at hlength
  exact List.length_eq_zero_iff.1 (by omega)

/-! ## Watching the end

    The reader asks for bytes in four ways: one byte, the four bytes of a length, the bytes of a
    field, and the eight bytes of the term. A watched reader has no result if it asks for more bytes
    than there are left. -/

/-- The first byte and the rest, if there is a byte. -/
def first? : Bytes → Option (UInt8 × Bytes)
  | [] => none
  | b :: bs => some (b, bs)

/-- The first bytes and the rest, if there are so many. -/
def split? (size : Nat) (bs : Bytes) : Option (Bytes × Bytes) :=
  if size ≤ bs.length then some (bs.take size, bs.drop size) else none

/-- A result or a refusal, if the end was not passed. -/
abbrev Watched (α : Type) := ExceptT Error Option α

/-- What came of a step that did not pass the end. -/
def within {α : Type} (r : Except Error α) : Watched α := ExceptT.mk (some r)

/-- Reads one field off the front, watched. -/
def watchField (field : Field) (bs : Bytes) : Watched (String × Bytes) :=
  if bs.length < 4 then throw (.noLength field)
  else do
    let (head, rest) ← split? 4 bs
    let size := Bytes.toNatLE head
    if fieldLimit ≤ size then throw (.negativeLength field)
    else if rest.length < size then throw (.truncated field size rest.length)
    else do
      let (raw, rest) ← split? size rest
      match Utf8.decodeText raw with
      | .ok s => return (s, rest)
      | .error fault => throw (.notText field fault)

/-- Reads an entry, watched. -/
def watch (bs : Bytes) : Watched Entry :=
  if bs.length < minSize then throw (.tooSmall bs.length)
  else do
    let (opcode, rest) ← first? bs
    let operation ← within (decodeOperation opcode)
    let (user, rest) ← watchField .user rest
    let (key, rest) ← watchField .key rest
    let (value, rest) ← watchField .value rest
    if rest.length ≠ 8 then throw (.termSize rest.length)
    else do
      let (term, _) ← split? 8 rest
      return ⟨operation, user, key, value, Bytes.toInt64LE term⟩

theorem split?_of_le {size : Nat} (h : size ≤ bs.length) :
    split? size bs = some (bs.take size, bs.drop size) :=
  if_pos h

/-- If the next steps do not pass the end either, the whole does not. -/
theorem within_bind {α β : Type} (r : Except Error α) {f : α → Except Error β}
    {g : α → Watched β} (h : ∀ a, g a = within (f a)) : (within r >>= g) = within (r >>= f) := by
  -- An error stops both at once; otherwise both go on with the same value.
  cases r with
  | error fault => rfl
  | ok a => exact h a

theorem some_bind {α β : Type} (a : α) (g : α → Watched β) :
    ((liftM (some a) : Watched α) >>= g) = g a := rfl

/-- The checks before a field's reads are enough. -/
theorem watchField_eq (field : Field) (bs : Bytes) :
    watchField field bs = within (decodeField field bs) := by
  unfold watchField decodeField
  split
  · rfl
  -- Four bytes are there, so the length is read without passing the end; so is the text, once it is
  -- known to be there.
  rename_i hlength
  rw [split?_of_le (Nat.not_lt.1 hlength), some_bind]
  simp only
  split
  · rfl
  split
  · rfl
  rename_i henough
  rw [split?_of_le (Nat.not_lt.1 henough), some_bind]
  simp only
  cases Utf8.decodeText ((bs.drop 4).take (Bytes.toNatLE (bs.take 4))) with
  | ok s => rfl
  | error fault => rfl

/-- Reading never asks for a byte behind the end. -/
theorem watch_eq (bs : Bytes) : watch bs = within (decode bs) := by
  unfold watch decode
  cases bs with
  | nil => rfl
  | cons b tail =>
    simp only
    split
    · rfl
    -- A record has at least the bytes of its fixed parts, so it has a first one; every field takes
    -- care of itself.
    rw [first?, some_bind]
    apply within_bind
    intro operation
    rw [watchField_eq]
    apply within_bind
    intro user
    rw [watchField_eq]
    apply within_bind
    intro key
    rw [watchField_eq]
    apply within_bind
    intro value
    split
    · rfl
    · rename_i hterm
      have height : value.2.length = 8 := Decidable.not_not.1 hterm
      rw [split?_of_le (Nat.le_of_eq height.symm), some_bind,
        List.take_of_length_le (Nat.le_of_eq height)]
      rfl

/-! ## The format -/

/-- Writing succeeds for every entry that a record can hold, with as many bytes as foretold; reading
    undoes writing and writing undoes reading, so an entry has one record; what is no record is
    refused as damage without a look behind its end; and neither the beginning of a record nor a
    record with something behind it is a record. -/
theorem canonical :
    (∀ e : Entry, e.Fits → ∃ bs, encode e = .ok bs ∧ bs.length = encodedLength e) ∧
    (∀ (bs : Bytes) (e : Entry), decode bs = .ok e ↔ encode e = .ok bs) ∧
    (∀ (bs bs' : Bytes) (e : Entry), decode bs = .ok e → decode bs' = .ok e → bs = bs') ∧
    (∀ bs : Bytes, (∀ e, encode e ≠ .ok bs) →
      ∃ fault, decode bs = .error fault ∧ (Error.record fault).kind = .dataLoss) ∧
    (∀ bs : Bytes, (watch bs).run = some (decode bs)) ∧
    (∀ (e : Entry) (bs rest : Bytes), encode e = .ok bs → rest ≠ [] →
      ∀ e', decode (bs ++ rest) ≠ .ok e') ∧
    (∀ (e : Entry) (bs rest : Bytes), encode e = .ok (bs ++ rest) → rest ≠ [] →
      ∀ e', decode bs ≠ .ok e') := by
  -- A record is no beginning of another one; both the longer and the shorter byte string come down
  -- to that.
  have hends : ∀ (e e' : Entry) (bs rest : Bytes), encode e = .ok bs →
      encode e' = .ok (bs ++ rest) → rest = [] := by
    intro e e' bs rest he he'
    obtain ⟨hfits, rfl⟩ := eq_bytesOf_of_decode (decode_eq_ok_iff.2 he)
    obtain ⟨hfits', heq⟩ := eq_bytesOf_of_decode (decode_eq_ok_iff.2 he')
    exact bytesOf_append_eq hfits hfits' heq
  refine ⟨?_, fun _ _ => decode_eq_ok_iff, ?_, ?_, watch_eq, ?_, ?_⟩
  · intro e he
    exact ⟨bytesOf e, encode_eq_ok he, length_bytesOf e⟩
  · intro bs bs' e h h'
    rw [(eq_bytesOf_of_decode h).2, (eq_bytesOf_of_decode h').2]
  · intro bs hnone
    cases hdecode : decode bs with
    | ok e => exact absurd (decode_eq_ok_iff.1 hdecode) (hnone e)
    | error fault => exact ⟨fault, rfl, rfl⟩
  · intro e bs rest he hrest e' he'
    exact hrest (hends e e' bs rest he (decode_eq_ok_iff.1 he'))
  · intro e bs rest he hrest e' he'
    exact hrest (hends e' e bs rest (decode_eq_ok_iff.1 he') he)

/-- A record of 24 bytes, with one byte more and with one byte less; and 21 bytes that give the user
    a negative length. -/
theorem canonical_of_put :
    let e : Entry := .put "u" "é" "" 7
    let bs : Bytes := [1, 1, 0, 0, 0, 0x75, 2, 0, 0, 0, 0xC3, 0xA9, 0, 0, 0, 0,
      7, 0, 0, 0, 0, 0, 0, 0]
    let negative : Bytes := [1, 0, 0, 0, 0x80] ++ List.replicate 16 0
    e.Fits ∧ encode e = .ok bs ∧ bs.length = encodedLength e ∧ decode bs = .ok e ∧
      (∀ e', decode (bs ++ [0]) ≠ .ok e') ∧ (∀ e', decode (bs.take 23) ≠ .ok e') ∧
      (∀ e', encode e' ≠ .ok negative) ∧
      ∃ fault, decode negative = .error fault ∧ (Error.record fault).kind = .dataLoss := by
  intro e bs negative
  obtain ⟨hwritten, hiff, -, hrefused, -, hlonger, hshorter⟩ := canonical
  have hfits : e.Fits := by decide
  obtain ⟨bs', hencode, hlength⟩ := hwritten e hfits
  have hbytes : encode e = .ok bs := (encode_eq_ok hfits).trans (congrArg Except.ok (by decide))
  have hsame : bs' = bs := Except.ok.inj (hencode.symm.trans hbytes)
  have hnone : ∀ e', encode e' ≠ .ok negative := by
    intro e' he'
    have hread : decode negative = .error (.negativeLength .user) := rfl
    rw [(hiff negative e').2 he'] at hread
    cases hread
  exact ⟨hfits, hbytes, hsame ▸ hlength, (hiff bs e).2 hbytes, hlonger e bs [0] hbytes (by simp),
    hshorter e (bs.take 23) [0] hbytes (by simp), hnone, hrefused negative hnone⟩

end ReplicaStore.Record
