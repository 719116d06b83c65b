import ReplicaStore.Metadata.Basic
import ReplicaStore.Proofs.Action
import ReplicaStore.Proofs.Text.StringBytes
import ReplicaStore.RecordFile.Frame

/-! # Payloads read back

    Each of the three kinds of payload reads back as the record it was written for, whatever
    follows it. Replaying many payloads succeeds exactly if each of them reads, for the terms and
    the votes, or if the last one does, for the root principal. -/

namespace ReplicaStore.Payload

/-! ## Numbers and texts -/

theorem readEight_append {number : Bytes} (h : number.length = 8) (rest : Bytes) :
    readEight (number ++ rest) = .ok (number, rest) := by
  have hlong : ¬ (number ++ rest).length < 8 := by
    rw [List.length_append]
    omega
  rw [readEight, if_neg hlong, List.take_left' h, List.drop_left' h]

/-- Whether the eight bytes before a text can tell its number of bytes. Memory holds no other
    texts. -/
def TextFits (s : String) : Prop :=
  s.utf8ByteSize < 2 ^ 64

instance (s : String) : Decidable (TextFits s) :=
  inferInstanceAs (Decidable (_ < _))

theorem readText_writeText_append {s : String} (h : TextFits s) (rest : Bytes) :
    readText (writeText s ++ rest) = .ok (s, rest) := by
  have hfits : (Utf8.encodeText s).length < 2 ^ 64 := by
    rw [Utf8.length_encodeText]
    exact h
  have hsize : Bytes.toNatLE (Bytes.ofNatLE 8 (Utf8.encodeText s).length) =
      (Utf8.encodeText s).length := Bytes.toNatLE_ofNatLE hfits
  -- There are at least the bytes of the text, however many follow.
  have hlong : ¬ (Utf8.encodeText s ++ rest).length < (Utf8.encodeText s).length := by
    rw [List.length_append]
    omega
  rw [readText, writeText, List.append_assoc, readEight_append (Bytes.length_ofNatLE 8 _), ok_bind]
  simp only [hsize, if_neg hlong, List.take_left, List.drop_left, Utf8.decodeText_encodeText]
  rfl

theorem length_writeText (s : String) : (writeText s).length = 8 + s.utf8ByteSize := by
  simp [writeText, Utf8.length_encodeText]

/-! ## Terms -/

theorem toTerm_ofTerm_append (term : Int64) (rest : Bytes) :
    toTerm (ofTerm term ++ rest) = .ok term := by
  rw [toTerm, ofTerm, readEight_append (Bytes.length_ofInt64LE term), ok_bind]
  exact congrArg Except.ok (Bytes.toInt64LE_ofInt64LE term)

@[simp] theorem toTerm_ofTerm (term : Int64) : toTerm (ofTerm term) = .ok term := by
  have hread := toTerm_ofTerm_append term []
  rw [List.append_nil] at hread
  exact hread

/-! ## Votes -/

def VoteFits (v : Vote) : Prop :=
  TextFits v.server

instance (v : Vote) : Decidable (VoteFits v) :=
  inferInstanceAs (Decidable (TextFits _))

theorem voteFits_of_length {v : Vote} (h : (ofVote v).length < 2 ^ 64) : VoteFits v := by
  -- A payload is longer than the text in it.
  have hlength : (ofVote v).length = 8 + (8 + v.server.utf8ByteSize) := by
    rw [ofVote, List.length_append, Bytes.length_ofInt64LE, length_writeText]
  rw [VoteFits, TextFits]
  omega

theorem toVote_ofVote_append {v : Vote} (h : VoteFits v) (rest : Bytes) :
    toVote (ofVote v ++ rest) = .ok v := by
  have htext := readText_writeText_append h rest
  rw [toVote, ofVote, List.append_assoc, readEight_append (Bytes.length_ofInt64LE v.term), ok_bind]
  simp only [htext, ok_bind, Bytes.toInt64LE_ofInt64LE]
  rfl

/-- The payload of a vote that fits a frame reads back. -/
theorem toVote_ofVote {v : Vote} (h : (ofVote v).length < Frame.payloadLimit) :
    toVote (ofVote v) = .ok v := by
  have hlimit : Frame.payloadLimit < 2 ^ 64 := by decide
  have hread := toVote_ofVote_append (voteFits_of_length (Nat.lt_trans h hlimit)) []
  rw [List.append_nil] at hread
  exact hread

/-! ## Root principals -/

def RootFits (r : Root) : Prop :=
  TextFits r.name ∧ TextFits r.password

theorem rootFits_of_length {r : Root} (h : (ofRoot r).length < 2 ^ 64) : RootFits r := by
  have hlength : (ofRoot r).length = (8 + r.name.utf8ByteSize) + (8 + r.password.utf8ByteSize) := by
    rw [ofRoot, List.length_append, length_writeText, length_writeText]
  rw [RootFits, TextFits, TextFits]
  omega

theorem toRoot_ofRoot_append {r : Root} (h : RootFits r) (rest : Bytes) :
    toRoot (ofRoot r ++ rest) = .ok r := by
  have hpassword := readText_writeText_append h.2 rest
  rw [toRoot, ofRoot, List.append_assoc, readText_writeText_append h.1, ok_bind]
  simp only [hpassword, ok_bind]
  rfl

/-- The payload of a root principal that fits a frame reads back. -/
theorem toRoot_ofRoot {r : Root} (h : (ofRoot r).length < Frame.payloadLimit) :
    toRoot (ofRoot r) = .ok r := by
  have hlimit : Frame.payloadLimit < 2 ^ 64 := by decide
  have hread := toRoot_ofRoot_append (rootFits_of_length (Nat.lt_trans h hlimit)) []
  rw [List.append_nil] at hread
  exact hread

end ReplicaStore.Payload

/-! ## Many payloads -/

namespace ReplicaStore.Replay

/-- A replay succeeds exactly if every payload reads, and is then the fold of what was read. -/
theorem foldlM_eq_ok_iff {ε α β γ : Type} {f : α → Except ε β} {g : γ → β → γ} {as : List α}
    {first last : γ} :
    as.foldlM (fun c a => (f a).map (g c)) first = .ok last ↔
      ∃ bs : List β, as.map f = bs.map .ok ∧ bs.foldl g first = last := by
  -- By the payloads, as the replay goes through them.
  induction as generalizing first with
  | nil =>
    constructor
    · intro h
      exact ⟨[], rfl, Except.ok.inj h⟩
    · rintro ⟨bs, hread, rfl⟩
      obtain rfl := List.map_eq_nil_iff.1 hread.symm
      rfl
  | cons a as ih =>
    rw [List.foldlM_cons, List.map_cons]
    constructor
    · intro h
      obtain ⟨c, hfirst, hrest⟩ := exists_of_bind_eq_ok h
      cases hread : f a with
      | error e =>
        rw [hread] at hfirst
        cases hfirst
      | ok b =>
        rw [hread] at hfirst
        obtain rfl := Except.ok.inj hfirst
        obtain ⟨bs, hreads, hlast⟩ := ih.1 hrest
        exact ⟨b :: bs, by rw [List.map_cons, hreads], hlast⟩
    · rintro ⟨bs, hreads, hlast⟩
      obtain ⟨b, bs, rfl, hread, hrest⟩ := List.map_eq_cons_iff.1 hreads.symm
      rw [← hread]
      exact ih.2 ⟨bs, hrest.symm, hlast⟩

theorem foldl_replace {α : Type} (as : List α) (first : α) :
    as.foldl (fun _ a => a) first = as.getLastD first := by
  induction as generalizing first with
  | nil => rfl
  | cons a as ih => rw [List.foldl_cons, ih, List.getLastD_cons]

/-- The terms are replayed exactly if all of them read; the last one is left. -/
theorem term_eq_ok_iff {payloads : List Bytes} {number : Int64} :
    Replay.term payloads = .ok number ↔
      ∃ terms : List Int64,
        payloads.map Payload.toTerm = terms.map .ok ∧ terms.getLastD 0 = number := by
  -- A term that is read takes the place of the one before it.
  have hstep : Replay.term payloads =
      payloads.foldlM (fun _ payload => (Payload.toTerm payload).map fun number => number) 0 := by
    unfold Replay.term
    congr
    funext _ payload
    cases Payload.toTerm payload <;> rfl
  rw [hstep, foldlM_eq_ok_iff]
  simp only [foldl_replace]

/-- The votes are replayed exactly if all of them read. -/
theorem votes_eq_ok_iff {payloads : List Bytes} {known : Votes} :
    Replay.votes payloads = .ok known ↔
      ∃ votes : List Vote,
        payloads.map Payload.toVote = votes.map .ok ∧
          votes.foldl (fun (known : Votes) v => known.set v) [] = known :=
  foldlM_eq_ok_iff

/-- The root principal is replayed exactly if the last payload reads, or there is none. -/
theorem root_eq_ok_iff {payloads : List Bytes} {root : Option Root} :
    Replay.root payloads = .ok root ↔
      payloads.getLast?.map Payload.toRoot = root.map .ok := by
  unfold Replay.root
  -- Only the last payload is read.
  cases payloads.getLast? with
  | none => cases root <;> simp
  | some payload =>
    cases hread : Payload.toRoot payload <;> cases root <;> simp [Except.map, hread]

/-- The payloads of terms read back. -/
theorem map_toTerm_ofTerm (terms : List Int64) :
    (terms.map Payload.ofTerm).map Payload.toTerm = terms.map .ok :=
  List.map_map.trans (List.map_congr_left fun number _ => Payload.toTerm_ofTerm number)

/-- The payloads of votes that fit frames read back. -/
theorem map_toVote_ofVote {votes : List Vote}
    (hfits : ∀ v ∈ votes, (Payload.ofVote v).length < Frame.payloadLimit) :
    (votes.map Payload.ofVote).map Payload.toVote = votes.map .ok :=
  List.map_map.trans (List.map_congr_left fun v hv => Payload.toVote_ofVote (hfits v hv))

end ReplicaStore.Replay
