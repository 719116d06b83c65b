import ReplicaStore.Proofs.Metadata.Payload

/-! # What a payload starts with

    A record is read off the front of its payload. Of each kind there is one beginning for every
    record, so a payload starts with one record at most, and that is the one that is read; the bytes
    behind it do not matter. A payload that starts with no record is refused as damage, and the
    refusal says what is missing: a number or a text is cut off, or bytes are no text.

    * `readText_eq_ok_iff`, `readText_eq_error_iff`: what a text is read off, and what is none.
    * `toTerm_eq_ok_iff`, `toVote_eq_ok_iff`, `toRoot_eq_ok_iff`: each kind of record.
    * `records_stand_in_front`: reading, writing and refusing of all three. -/

namespace ReplicaStore.Payload

variable {bs rest number : Bytes} {s : String} {fault : Error}

/-! ## Numbers -/

/-- Eight bytes are read off the front exactly if they stand there. -/
theorem readEight_eq_ok_iff :
    readEight bs = .ok (number, rest) ↔ number.length = 8 ∧ bs = number ++ rest := by
  constructor
  · intro h
    rw [readEight] at h
    split at h
    · cases h
    · rename_i hlong
      cases h
      refine ⟨?_, (List.take_append_drop 8 bs).symm⟩
      rw [List.length_take]
      omega
  · rintro ⟨height, rfl⟩
    exact readEight_append height rest

theorem readEight_eq_error_iff :
    readEight bs = .error fault ↔ bs.length < 8 ∧ fault = .shortNumber := by
  rw [readEight]
  split
  · rename_i hshort
    simp only [Except.error.injEq, hshort, true_and, eq_comm]
  · rename_i hlong
    simp only [reduceCtorEq, hlong, false_and]

/-! ## Texts -/

/-- A text is written as its number of bytes and the bytes of its string. -/
theorem writeText_eq (s : String) :
    writeText s = Bytes.ofNatLE 8 s.utf8ByteSize ++ s.toByteArray.data.toList := by
  rw [writeText, Utf8.length_encodeText, Utf8.encodeText_eq]

/-- A text behind its eight bytes of length. -/
theorem readText_append {size : Bytes} (height : size.length = 8) (after : Bytes) :
    readText (size ++ after) =
      if after.length < Bytes.toNatLE size then .error .shortText
      else match Utf8.decodeText (after.take (Bytes.toNatLE size)) with
        | .ok s => .ok (s, after.drop (Bytes.toNatLE size))
        | .error fault => .error (.notText fault) := by
  rw [readText, readEight_append height, ok_bind]
  simp only
  split
  · rfl
  · cases Utf8.decodeText (after.take (Bytes.toNatLE size)) <;> rfl

/-- A text is read off the front exactly if what is written for it stands there. -/
theorem readText_eq_ok_iff :
    readText bs = .ok (s, rest) ↔ TextFits s ∧ bs = writeText s ++ rest := by
  constructor
  · intro h
    obtain ⟨⟨size, after⟩, hsize, -⟩ := exists_of_bind_eq_ok h
    obtain ⟨height, rfl⟩ := readEight_eq_ok_iff.1 hsize
    rw [readText_append height] at h
    split at h
    · cases h
    rename_i henough
    split at h
    · rename_i text htext
      cases h
      -- The bytes that were read are the ones of the text, so the number before them is theirs.
      have hbody := Utf8.encodeText_of_decodeText htext
      have hlength : (Utf8.encodeText s).length = Bytes.toNatLE size := by
        rw [hbody, List.length_take]
        omega
      have hhead : Bytes.ofNatLE 8 (Bytes.toNatLE size) = size := by
        rw [← height]
        exact Bytes.ofNatLE_toNatLE size
      refine ⟨?_, ?_⟩
      · have hlt : Bytes.toNatLE size < 2 ^ 64 := by
          have h := Bytes.toNatLE_lt size
          rw [height] at h
          exact h
        rw [TextFits, ← Utf8.length_encodeText, hlength]
        exact hlt
      · rw [writeText, hlength, hhead, hbody, List.append_assoc, List.take_append_drop]
    · cases h
  · rintro ⟨hfits, rfl⟩
    exact readText_writeText_append hfits rest

/-- Why a text cannot be read off the front of a byte string. -/
inductive NoText : Bytes → Error → Prop
  /-- Its number of bytes is cut off. -/
  | noLength {bs : Bytes} (hshort : bs.length < 8) : NoText bs .shortNumber
  /-- Its number of bytes is more than there are. -/
  | pastEnd {size after : Bytes} (height : size.length = 8)
      (hshort : after.length < Bytes.toNatLE size) : NoText (size ++ after) .shortText
  /-- Its bytes are no text. -/
  | notText {size body after : Bytes} {fault : Utf8.Error} (height : size.length = 8)
      (hbody : body.length = Bytes.toNatLE size) (hfault : Utf8.decodeText body = .error fault) :
      NoText (size ++ (body ++ after)) (.notText fault)

theorem readText_eq_error_iff : readText bs = .error fault ↔ NoText bs fault := by
  constructor
  · intro h
    -- A read fails at the number in front, or behind a number that was read.
    rcases bind_eq_error_iff.1 h with hsize | ⟨⟨size, after⟩, hsize, -⟩
    · obtain ⟨hshort, rfl⟩ := readEight_eq_error_iff.1 hsize
      exact .noLength hshort
    obtain ⟨height, rfl⟩ := readEight_eq_ok_iff.1 hsize
    rw [readText_append height] at h
    split at h
    · rename_i hshort
      cases h
      exact .pastEnd height hshort
    rename_i henough
    split at h
    · cases h
    · rename_i fault hfault
      cases h
      have hbody : (after.take (Bytes.toNatLE size)).length = Bytes.toNatLE size := by
        rw [List.length_take]
        omega
      rw [← List.take_append_drop (Bytes.toNatLE size) after]
      exact .notText height hbody hfault
  · rintro (hshort | ⟨height, hshort⟩ | ⟨height, hbody, hfault⟩)
    · exact bind_eq_error_iff.2 (.inl (readEight_eq_error_iff.2 ⟨hshort, rfl⟩))
    · rw [readText_append height, if_pos hshort]
    · rename_i size body after fault
      have henough : ¬ (body ++ after).length < Bytes.toNatLE size := by
        rw [List.length_append]
        omega
      rw [readText_append height, if_neg henough, List.take_left' hbody, hfault]

/-! ## Terms -/

variable {term : Int64} {v : Vote} {r : Root}

theorem toTerm_eq_ok_iff : toTerm bs = .ok term ↔ ofTerm term <+: bs := by
  constructor
  · intro hread
    obtain ⟨⟨number, rest⟩, hnumber, hvalue⟩ := exists_of_bind_eq_ok hread
    obtain ⟨height, rfl⟩ := readEight_eq_ok_iff.1 hnumber
    cases hvalue
    rw [ofTerm, Bytes.ofInt64LE_toInt64LE height]
    -- What follows the number is not looked at.
    exact List.prefix_append number rest
  · rintro ⟨rest, rfl⟩
    exact toTerm_ofTerm_append term rest

/-- Why a payload holds no term. -/
inductive NoTerm : Bytes → Error → Prop
  | cutOff {bs : Bytes} (hshort : bs.length < 8) : NoTerm bs .shortNumber

theorem toTerm_eq_error_iff : toTerm bs = .error fault ↔ NoTerm bs fault := by
  constructor
  · intro hread
    rcases bind_eq_error_iff.1 hread with hnumber | ⟨_, -, hvalue⟩
    · obtain ⟨hshort, rfl⟩ := readEight_eq_error_iff.1 hnumber
      exact .cutOff hshort
    · cases hvalue
  · rintro ⟨hshort⟩
    exact bind_eq_error_iff.2 (.inl (readEight_eq_error_iff.2 ⟨hshort, rfl⟩))

/-! ## Votes -/

theorem toVote_eq_ok_iff : toVote bs = .ok v ↔ VoteFits v ∧ ofVote v <+: bs := by
  constructor
  · intro hread
    obtain ⟨⟨number, rest⟩, hnumber, hbehind⟩ := exists_of_bind_eq_ok hread
    obtain ⟨⟨server, after⟩, hserver, hvalue⟩ := exists_of_bind_eq_ok hbehind
    -- Put together again, the two parts are the beginning of what was read.
    obtain ⟨height, rfl⟩ := readEight_eq_ok_iff.1 hnumber
    obtain ⟨hfits, rfl⟩ := readText_eq_ok_iff.1 hserver
    cases hvalue
    refine ⟨hfits, after, ?_⟩
    rw [ofVote, Bytes.ofInt64LE_toInt64LE height, List.append_assoc]
  · rintro ⟨hfits, after, rfl⟩
    exact toVote_ofVote_append hfits after

/-- Why a payload holds no vote. -/
inductive NoVote : Bytes → Error → Prop
  | noTerm {bs : Bytes} (hshort : bs.length < 8) : NoVote bs .shortNumber
  /-- No server stands behind the term. -/
  | noServer {number rest : Bytes} {fault : Error} (height : number.length = 8)
      (hserver : NoText rest fault) : NoVote (number ++ rest) fault

theorem toVote_eq_error_iff : toVote bs = .error fault ↔ NoVote bs fault := by
  constructor
  · intro hread
    -- The first part that cannot be read gives the reason.
    rcases bind_eq_error_iff.1 hread with hnumber | ⟨⟨number, rest⟩, hnumber, hbehind⟩
    · obtain ⟨hshort, rfl⟩ := readEight_eq_error_iff.1 hnumber
      exact .noTerm hshort
    obtain ⟨height, rfl⟩ := readEight_eq_ok_iff.1 hnumber
    rcases bind_eq_error_iff.1 hbehind with hserver | ⟨_, -, hvalue⟩
    · exact .noServer height (readText_eq_error_iff.1 hserver)
    · cases hvalue
  · rintro (hshort | ⟨height, hserver⟩)
    · exact bind_eq_error_iff.2 (.inl (readEight_eq_error_iff.2 ⟨hshort, rfl⟩))
    · rw [toVote, readEight_append height, ok_bind]
      exact bind_eq_error_iff.2 (.inl (readText_eq_error_iff.2 hserver))

/-! ## Root principals -/

theorem toRoot_eq_ok_iff : toRoot bs = .ok r ↔ RootFits r ∧ ofRoot r <+: bs := by
  constructor
  · intro hread
    obtain ⟨⟨name, rest⟩, hname, hbehind⟩ := exists_of_bind_eq_ok hread
    obtain ⟨⟨password, after⟩, hpassword, hvalue⟩ := exists_of_bind_eq_ok hbehind
    obtain ⟨hfits, rfl⟩ := readText_eq_ok_iff.1 hname
    obtain ⟨hfits', rfl⟩ := readText_eq_ok_iff.1 hpassword
    cases hvalue
    refine ⟨⟨hfits, hfits'⟩, after, ?_⟩
    rw [ofRoot, List.append_assoc]
  · rintro ⟨hfits, after, rfl⟩
    exact toRoot_ofRoot_append hfits after

/-- Why a payload holds no root principal. -/
inductive NoRoot : Bytes → Error → Prop
  /-- No name stands in front. -/
  | noName {bs : Bytes} {fault : Error} (hname : NoText bs fault) : NoRoot bs fault
  /-- No password stands behind the name. -/
  | noPassword {name : String} {rest : Bytes} {fault : Error} (hname : TextFits name)
      (hpassword : NoText rest fault) : NoRoot (writeText name ++ rest) fault

theorem toRoot_eq_error_iff : toRoot bs = .error fault ↔ NoRoot bs fault := by
  constructor
  · intro hread
    -- A password is looked for behind a name only.
    rcases bind_eq_error_iff.1 hread with hname | ⟨⟨name, rest⟩, hname, hbehind⟩
    · exact .noName (readText_eq_error_iff.1 hname)
    obtain ⟨hfits, rfl⟩ := readText_eq_ok_iff.1 hname
    rcases bind_eq_error_iff.1 hbehind with hpassword | ⟨_, -, hvalue⟩
    · exact .noPassword hfits (readText_eq_error_iff.1 hpassword)
    · cases hvalue
  · rintro (hname | ⟨hname, hpassword⟩)
    · exact bind_eq_error_iff.2 (.inl (readText_eq_error_iff.2 hname))
    · rw [toRoot, readText_eq_ok_iff.2 ⟨hname, rfl⟩, ok_bind]
      exact bind_eq_error_iff.2 (.inl (readText_eq_error_iff.2 hpassword))

/-! ## All kinds -/

/-- Whether a reader takes the records of one kind off the front of their payloads: `write` gives
    the bytes of a record, `Fits` says which records there are, and `Lacks` why a payload holds
    none. -/
structure ReadsFront {α : Type} (read : Bytes → Except Error α) (write : α → Bytes)
    (Fits : α → Prop) (Lacks : Bytes → Error → Prop) : Prop where
  /-- A payload is read as the record that it starts with, and as nothing else. -/
  reads_iff : ∀ bs r, read bs = .ok r ↔ Fits r ∧ write r <+: bs
  /-- The texts of a record in a payload of fewer than 2⁶⁴ bytes fit. -/
  reads_iff_of_length : ∀ bs r, bs.length < 2 ^ 64 → (read bs = .ok r ↔ write r <+: bs)
  /-- What is written for a record is read as this record, whatever follows. -/
  reads_back : ∀ r rest, Fits r → read (write r ++ rest) = .ok r
  /-- A payload starts with one record at most. -/
  unique : ∀ bs r r', Fits r → Fits r' → write r <+: bs → write r' <+: bs → r = r'
  /-- A payload that starts with no record is refused as damage of its file, and no other is. -/
  refuses_iff : ∀ path bs, (∀ r, Fits r → ¬ write r <+: bs) ↔
    ∃ e, (read bs).mapError (ReplicaStore.Error.malformedPayload path) = .error e ∧
      e.kind = .dataLoss
  /-- The refusal says why. -/
  refuses_because : ∀ bs fault, read bs = .error fault ↔ Lacks bs fault

/-- All of it follows from what is read as a record, and what is refused. -/
theorem ReadsFront.of_iff {α : Type} {read : Bytes → Except Error α} {write : α → Bytes}
    {Fits : α → Prop} {Lacks : Bytes → Error → Prop}
    (hreads : ∀ bs r, read bs = .ok r ↔ Fits r ∧ write r <+: bs)
    (hrefuses : ∀ bs fault, read bs = .error fault ↔ Lacks bs fault)
    (hfits : ∀ r, (write r).length < 2 ^ 64 → Fits r) : ReadsFront read write Fits Lacks where
  reads_iff := hreads
  reads_iff_of_length := by
    intro bs r hlength
    rw [hreads]
    refine ⟨fun h => h.2, fun hfront => ⟨hfits r ?_, hfront⟩⟩
    exact Nat.lt_of_le_of_lt hfront.length_le hlength
  reads_back := by
    intro r rest h
    exact (hreads _ _).2 ⟨h, List.prefix_append _ _⟩
  unique := by
    intro bs r r' h h' hfront hfront'
    have hread := (hreads bs r).2 ⟨h, hfront⟩
    rw [(hreads bs r').2 ⟨h', hfront'⟩] at hread
    exact (Except.ok.inj hread).symm
  refuses_iff := by
    intro path bs
    -- A reader either finds its record or refuses, so each of the two is told by the other.
    cases hread : read bs with
    | ok r =>
      obtain ⟨h, hfront⟩ := (hreads bs r).1 hread
      constructor
      · intro hnone
        exact absurd hfront (hnone r h)
      · rintro ⟨e, he, -⟩
        cases he
    | error fault =>
      constructor
      · intro _
        exact ⟨.malformedPayload path fault, rfl, rfl⟩
      · intro _ r h hfront
        rw [(hreads bs r).2 ⟨h, hfront⟩] at hread
        cases hread
  refuses_because := hrefuses

/-- Terms, votes and root principals are read off the front of their payloads, each payload as the
    one record that it starts with, or refused. A number takes eight bytes, the least significant
    one first; a text takes the eight bytes of its length and the bytes of its string, and is
    missing where these are not valid UTF-8. -/
theorem records_stand_in_front :
    ReadsFront toTerm ofTerm (fun _ => True) NoTerm ∧
    ReadsFront toVote ofVote VoteFits NoVote ∧
    ReadsFront toRoot ofRoot RootFits NoRoot ∧
    (∀ term, (ofTerm term).length = 8 ∧ Bytes.toNatLE (ofTerm term) = term.toBitVec.toNat) ∧
    (∀ s, writeText s = Bytes.ofNatLE 8 s.utf8ByteSize ++ s.toByteArray.data.toList) ∧
    ∀ bs : Bytes, (∃ fault, Utf8.decodeText bs = .error fault) ↔
      ¬ bs.toByteArray.IsValidUTF8 := by
  refine ⟨?_, ?_, ?_, ?_, writeText_eq, fun _ => Utf8.decodeText_eq_error_iff⟩
  · apply ReadsFront.of_iff
    · intro bs term
      rw [toTerm_eq_ok_iff, true_and]
    · intro bs fault
      exact toTerm_eq_error_iff
    · intro _ _
      exact trivial
  · apply ReadsFront.of_iff
    · intro bs v
      exact toVote_eq_ok_iff
    · intro bs fault
      exact toVote_eq_error_iff
    · intro v h
      exact voteFits_of_length h
  · apply ReadsFront.of_iff
    · intro bs r
      exact toRoot_eq_ok_iff
    · intro bs fault
      exact toRoot_eq_error_iff
    · intro r h
      exact rootFits_of_length h
  · intro term
    exact ⟨Bytes.length_ofInt64LE term, Bytes.toNatLE_ofNatLE term.toUInt64.toNat_lt⟩

/-- A vote with bytes behind it; a vote whose text would have all but one of 2⁶⁴ bytes; a root
    principal whose password is one byte that starts no character; and two bytes for a term. -/
theorem records_stand_in_front_of_strays :
    let vote : Vote := ⟨-2, "é"⟩
    let bytes : Bytes :=
      [254, 255, 255, 255, 255, 255, 255, 255, 2, 0, 0, 0, 0, 0, 0, 0, 0xC3, 0xA9]
    let farText : Bytes := Bytes.ofInt64LE 5 ++ (List.replicate 8 255 ++ [0x61, 0x62])
    let badPassword : Bytes := writeText "r" ++ ([1, 0, 0, 0, 0, 0, 0, 0] ++ ([0xFF] ++ []))
    let twoBytes : Bytes := [0x78, 0x79]
    VoteFits vote ∧ ofVote vote = bytes ∧ toVote (bytes ++ [7, 255]) = .ok vote ∧
      (∀ v, VoteFits v → ofVote v <+: bytes ++ [7, 255] → v = vote) ∧
      toVote farText = .error .shortText ∧ (∀ v, VoteFits v → ¬ ofVote v <+: farText) ∧
      toRoot badPassword = .error (.notText (.invalid 1 0)) ∧
      (∀ r, RootFits r → ¬ ofRoot r <+: badPassword) ∧
      ∃ e, (toTerm twoBytes).mapError (ReplicaStore.Error.malformedPayload "term.data") = .error e ∧
        e.kind = .dataLoss := by
  intro vote bytes farText badPassword twoBytes
  obtain ⟨hterm, hvote, hroot, -⟩ := records_stand_in_front
  have hfits : VoteFits vote := by decide
  have hbytes : ofVote vote = bytes := by decide
  have hback : toVote (bytes ++ [7, 255]) = .ok vote :=
    hbytes ▸ hvote.reads_back vote [7, 255] hfits
  -- The eight bytes of the length promise more than there is.
  have hfar : toVote farText = .error .shortText :=
    (hvote.refuses_because _ _).2 (.noServer rfl (.pastEnd rfl (by decide)))
  have hnoText : Utf8.decodeText [0xFF] = .error (.invalid 1 0) := by cbv
  have hbad : toRoot badPassword = .error (.notText (.invalid 1 0)) :=
    (hroot.refuses_because _ _).2 (.noPassword (by decide) (.notText rfl rfl hnoText))
  refine ⟨hfits, hbytes, hback, ?_, hfar, ?_, hbad, ?_, ?_⟩
  · intro v hv hfront
    exact hvote.unique _ v vote hv hfits hfront (hbytes ▸ List.prefix_append _ _)
  · exact (hvote.refuses_iff "vote.data" farText).2 ⟨_, congrArg (Except.mapError _) hfar, rfl⟩
  · exact (hroot.refuses_iff "root.data" badPassword).2 ⟨_, congrArg (Except.mapError _) hbad, rfl⟩
  · apply (hterm.refuses_iff "term.data" twoBytes).1
    intro term _ hfront
    have hlength := hfront.length_le
    rw [ofTerm, Bytes.length_ofInt64LE] at hlength
    exact absurd hlength (by decide)

end ReplicaStore.Payload
