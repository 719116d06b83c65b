import ReplicaStore.Proofs.Metadata.CrashAtomicity
import ReplicaStore.Proofs.Metadata.Replay

/-! # The three files as ledgers

    A store only ever appends, and only what is new. So the file of the terms holds growing terms,
    the file of the votes holds one vote of each term, and the file of the root principal holds one
    frame at most; each request either puts one frame behind one of the files, or does nothing.

    * `Orderly`, `Orderly.add`: what is true of the facts in the files, and stays true where a new
      fact is added.
    * `step_orderly`, `run_orderly`: every step, and so every run, keeps the files to the frames of
      orderly facts. A crash may leave the beginning of a frame behind them, and opening takes it
      off.
    * `Scrupulous`, `scrupulous_of_refines`: what an open store does when it is asked to write.
    * `ledger_of_run`: the files and the store at any moment of any run. -/

namespace ReplicaStore.Metadata

open ReplicaStore.Frame

variable {directory : String} {d : Disk} {h : History}

/-! ## Orderly facts -/

/-- Whether facts are as a store writes them. -/
structure History.Orderly (h : History) : Prop where
  /-- Each term is greater than all terms before. -/
  ascending : h.terms.Pairwise (· < ·)
  positive : ∀ number ∈ h.terms, 0 < number
  /-- No term has two votes. -/
  distinct : (h.votes.map Vote.term).Nodup
  /-- The root principal is written once. -/
  single : h.roots.length ≤ 1

namespace History

theorem orderly_empty : empty.Orderly :=
  ⟨.nil, by simp [empty], .nil, by simp [empty]⟩

/-- What is shown of orderly votes are these votes. -/
theorem Orderly.votes_perm (ho : h.Orderly) : h.view.votes.Perm h.votes :=
  Votes.perm_ofList ho.distinct

/-- The term that is shown is the greatest, and none is shown that is not positive. -/
theorem Orderly.le_term (ho : h.Orderly) :
    0 ≤ h.view.term ∧ ∀ number ∈ h.terms, number ≤ h.view.term := by
  -- The terms ascend, so the last one, which is shown, is the greatest.
  rcases List.eq_nil_or_concat h.terms with hnone | ⟨earlier, last, hterms⟩
  · simp [view, hnone]
  · rw [List.concat_eq_append] at hterms
    have hlast : h.view.term = last := by simp [view, hterms]
    have hascending := ho.ascending
    rw [hterms, List.pairwise_append] at hascending
    rw [hlast]
    refine ⟨Int64.le_of_lt (ho.positive last (by simp [hterms])), ?_⟩
    rw [hterms]
    refine List.forall_mem_append.2 ⟨?_, List.forall_mem_singleton.2 (Int64.le_refl last)⟩
    intro number hearlier
    exact Int64.le_of_lt (hascending.2.2 number hearlier last (by simp))

/-- The root principal that is shown is the one that was written. -/
theorem Orderly.roots_eq (ho : h.Orderly) : h.roots = h.view.root.toList := by
  have hsingle := ho.single
  obtain ⟨terms, votes, roots⟩ := h
  -- There is none or one: two would be too many.
  rcases roots with - | ⟨r, - | ⟨r', rest⟩⟩
  · rfl
  · rfl
  · simp at hsingle

/-- A new fact leaves the facts orderly. -/
theorem Orderly.add {fact : Fact} (ho : h.Orderly) (hnew : h.view.judge fact = .ok true) :
    (h.add fact).Orderly := by
  cases fact with
  | term number =>
    have hlt := View.judge_term_eq_true_iff.1 hnew
    -- The new term is greater than the one that is shown, which no other one exceeds.
    obtain ⟨hpositive, hgreatest⟩ := ho.le_term
    refine ⟨?_, ?_, ho.distinct, ho.single⟩
    · apply List.pairwise_append.2
      refine ⟨ho.ascending, List.pairwise_singleton _ number, ?_⟩
      intro earlier hearlier
      exact List.forall_mem_singleton.2 (Int64.lt_of_le_of_lt (hgreatest earlier hearlier) hlt)
    · have hnew : 0 < number := Int64.lt_of_le_of_lt hpositive hlt
      exact List.forall_mem_append.2 ⟨ho.positive, List.forall_mem_singleton.2 hnew⟩
  | vote v =>
    have hnone := View.judge_vote_eq_true_iff.1 hnew
    refine ⟨ho.ascending, ho.positive, ?_, ho.single⟩
    show ((h.votes ++ [v]).map Vote.term).Nodup
    rw [List.map_append, List.map_singleton, List.nodup_append]
    refine ⟨ho.distinct, by simp, ?_⟩
    intro term hterm
    -- A vote of the same term would be shown, and so the fact would not be new.
    obtain ⟨w, hw, rfl⟩ := List.mem_map.1 hterm
    have hne := Votes.server?_eq_none_iff.1 hnone w (ho.votes_perm.mem_iff.2 hw)
    exact List.forall_mem_singleton.2 hne
  | root r =>
    have hnone := View.judge_root_eq_true_iff.1 hnew
    refine ⟨ho.ascending, ho.positive, ho.distinct, ?_⟩
    show (h.roots ++ [r]).length ≤ 1
    -- A root principal is new only if there is none.
    rw [ho.roots_eq, hnone]
    exact Nat.le_refl 1

theorem Orderly.write (ho : h.Orderly) (fact : Fact) : (h.write fact).Orderly := by
  unfold History.write
  split
  · rename_i happends
    exact ho.add happends.1
  · exact ho

theorem Orderly.tear (ho : h.Orderly) (fact : Fact) (kept : Nat) : (h.tear fact kept).Orderly := by
  unfold History.tear
  split
  · exact ho
  · exact ho.write fact

end History

/-! ## Whole files -/

/-- Whether the three files are frames and nothing else. -/
def Whole (directory : String) (d : Disk) : Prop :=
  ∀ kind, d.bytesAt (place directory d kind) = encodeAll (intact directory d kind)

/-- Files that recover to a history begin with its frames. -/
theorem Recovers.intact_eq (hr : Recovers directory d h) (kind : Kind) :
    intact directory d kind = h.payloads kind :=
  (RecordFile.scan_of_recover (hr.recover kind)).2.1

/-- Where none of the files is there, they are whole. -/
theorem whole_of_empty (hempty : ∀ kind, d.node? (place directory d kind) = none) :
    Whole directory d := by
  intro kind
  have hbytes : d.bytesAt (place directory d kind) = [] := by
    simp [Disk.bytesAt, hempty kind]
  unfold intact
  rw [hbytes]
  simp [scan]

/-- Opening leaves whole files as they are, whether it succeeds or not. -/
theorem Whole.openAt (hw : Whole directory d) :
    Whole directory ((openAt directory).perform d).2 := by
  obtain ⟨hstart, hsettles⟩ := retains_openAt directory d
  intro kind
  have hsame : ((Metadata.openAt directory).perform d).2.bytesAt (place directory d kind) =
      d.bytesAt (place directory d kind) := by
    -- What is whole has nothing behind its frames that could be cut off.
    rcases hsettles kind with hsame | hcut
    · exact hsame
    · exact hcut.trans (hw kind).symm
  unfold intact
  rw [place_congr hstart, hsame]
  exact hw kind

namespace Session

variable {s : Session} {i : Ideal} {m : Metadata}

def bytes (directory : String) (s : Session) (kind : Kind) : Bytes :=
  s.disk.bytesAt (place directory s.disk kind)

/-! ## Runs -/

/-- While a store is open, its files are whole. -/
theorem whole_of_isOpen (hs : s.Refines directory i) (hopen : i.isOpen = true) :
    Whole directory s.disk := by
  intro kind
  rw [hs.recovers.intact_eq kind]
  exact hs.bytesAt hopen kind

/-- Every step keeps the facts orderly, and every step but a crash keeps whole files whole. -/
theorem step_orderly (hs : s.Refines directory i) (ho : i.history.Orderly) (label : Label) :
    ∃ i', (s.step directory label).2.Refines directory i' ∧ i'.history.Orderly ∧
      ((∀ fact kept, label ≠ .crash fact kept) → Whole directory s.disk →
        Whole directory (s.step directory label).2.disk) := by
  cases label with
  | openStore =>
    have hwhole (hw : Whole directory s.disk) :
        Whole directory (s.step directory .openStore).2.disk := hw.openAt
    -- Opening adds nothing to the history, whether it succeeds or fails.
    rcases follows_openStore hs with hfollows | ⟨-, hclosed, -⟩
    · exact ⟨_, hfollows.refines, ho, fun _ => hwhole⟩
    · exact ⟨_, hclosed, ho, fun _ => hwhole⟩
  | close => exact ⟨⟨i.history, false⟩, ⟨rfl, hs.recovers⟩, ho, fun _ hw => hw⟩
  | write fact =>
    cases hstore : s.store with
    | none =>
      simp only [step, hstore]
      exact ⟨i, hs, ho, fun _ hw => hw⟩
    | some m =>
      have hrefines := (follows_write hs fact).refines
      simp only [Ideal.step, (hs.serves hstore).1, if_true] at hrefines
      exact ⟨_, hrefines, ho.write fact, fun _ _ => whole_of_isOpen hrefines rfl⟩
  | crash fact kept =>
    -- A crash may tear its frame, so nothing is said about whole files behind it.
    refine ⟨_, (follows_crash hs fact kept).refines, ?_, ?_⟩
    · simp only [Ideal.step]
      split
      · exact ho.tear fact kept
      · exact ho
    · intro hcalm
      exact absurd rfl (hcalm fact kept)

theorem run_orderly (hs : s.Refines directory i) (ho : i.history.Orderly) (labels : List Label) :
    ∃ i', (s.run directory labels).Refines directory i' ∧ i'.history.Orderly ∧
      ((∀ fact kept, .crash fact kept ∉ labels) → Whole directory s.disk →
        Whole directory (s.run directory labels).disk) := by
  -- By induction on the run; that the facts are orderly is the invariant, and that the files are
  -- whole, as long as nothing crashed.
  induction labels generalizing s i with
  | nil => exact ⟨i, hs, ho, fun _ hw => hw⟩
  | cons label labels ih =>
    obtain ⟨i₁, hs₁, ho₁, hwhole₁⟩ := step_orderly hs ho label
    obtain ⟨i₂, hs₂, ho₂, hwhole₂⟩ := ih hs₁ ho₁
    refine ⟨i₂, hs₂, ho₂, ?_⟩
    intro hcalm hw
    have hfirst : ∀ fact kept, label ≠ .crash fact kept := by
      rintro fact kept rfl
      exact hcalm fact kept List.mem_cons_self
    have hrest : ∀ fact kept, .crash fact kept ∉ labels := by
      intro fact kept hmem
      exact hcalm fact kept (List.mem_cons_of_mem label hmem)
    exact hwhole₂ hrest (hwhole₁ hfirst hw)

/-! ## Requests -/

/-- How an open store takes requests to write: each either puts one frame behind one file, or does
    nothing. -/
structure Scrupulous (directory : String) (s : Session) (m : Metadata) : Prop where
  /-- What is new, and can be held by a frame, comes to the end of its file and is shown; the other
      files stay. -/
  appends : ∀ fact, m.view.Appends fact →
    let s' := (s.step directory (.write fact)).2
    (s.step directory (.write fact)).1 = some (.ok ()) ∧
      s'.shown = some (m.view.learn fact) ∧
      s'.bytes directory fact.kind = s.bytes directory fact.kind ++ encode fact.payload ∧
      ∀ kind, kind ≠ fact.kind → s'.bytes directory kind = s.bytes directory kind
  /-- Every other request leaves the disk and the store as they are. -/
  leaves : ∀ fact, ¬ m.view.Appends fact →
    s.step directory (.write fact) = (some (m.view.reply fact), s)
  /-- An older term is refused. -/
  olderTerm : ∀ number, number < m.term →
    s.step directory (.write (.term number)) = (some (.error (.staleTerm number m.term)), s)
  /-- The current term is accepted once more. -/
  sameTerm : s.step directory (.write (.term m.term)) = (some (.ok ()), s)
  /-- A vote is accepted once more. -/
  sameVote : ∀ term server, m.votedFor term = some server →
    s.step directory (.write (.vote ⟨term, server⟩)) = (some (.ok ()), s)
  /-- A second vote of a term is refused. -/
  otherVote : ∀ term server other, m.votedFor term = some server → server ≠ other →
    s.step directory (.write (.vote ⟨term, other⟩)) =
      (some (.error (.alreadyVoted server term)), s)
  /-- A second root principal is refused. -/
  otherRoot : ∀ root, m.root.isSome →
    s.step directory (.write (.root root)) = (some (.error .rootPresent), s)

theorem step_write_of_appends (hs : s.Refines directory i) (hstore : s.store = some m)
    {fact : Fact} (happends : m.view.Appends fact) :
    let s' := (s.step directory (.write fact)).2
    (s.step directory (.write fact)).1 = some (.ok ()) ∧
      s'.shown = some (m.view.learn fact) ∧
      s'.bytes directory fact.kind = s.bytes directory fact.kind ++ encode fact.payload ∧
      ∀ kind, kind ≠ fact.kind → s'.bytes directory kind = s.bytes directory kind := by
  intro s'
  have hopen := (hs.serves hstore).1
  have hview := hs.view_eq hstore
  rw [hview] at happends
  obtain ⟨hanswer, hrefines, -⟩ := follows_write hs fact
  simp only [Ideal.step, hopen, if_true, History.write, if_pos happends,
    View.reply_eq_ok_iff.2 (.inr happends)] at hanswer hrefines
  -- The files before and after are the frames of the two histories, which differ by the fact.
  have hbefore (kind : Kind) : s.bytes directory kind = encodeAll (i.history.payloads kind) :=
    hs.bytesAt hopen kind
  have hafter (kind : Kind) :
      s'.bytes directory kind = encodeAll ((i.history.add fact).payloads kind) :=
    hrefines.bytesAt rfl kind
  refine ⟨hanswer, ?_, ?_, ?_⟩
  · rw [hrefines.shown_eq, hview]
    exact congrArg some (i.history.view_add fact)
  · rw [hafter, hbefore, History.payloads_add_self, RecordFile.encodeAll_append, encodeAll_cons,
      encodeAll_nil, List.append_nil]
  · intro kind hne
    rw [hafter, hbefore, History.payloads_add_of_ne hne]

theorem step_write_of_not_appends (hstore : s.store = some m) {fact : Fact}
    (happends : ¬ m.view.Appends fact) :
    s.step directory (.write fact) = (some (m.view.reply fact), s) := by
  have hs : s = ⟨s.disk, some m⟩ := by rw [← hstore]
  simp only [step, hstore, perform_write_of_not_appends happends]
  -- Granted or refused, nothing was written.
  cases m.view.reply fact with
  | error e => exact congrArg _ hs.symm
  | ok u => exact congrArg _ hs.symm

/-- What is known already, or is refused, appends nothing. -/
theorem step_write_of_judge (hstore : s.store = some m) {fact : Fact} {answer : Except Error Unit}
    (hjudge : m.view.judge fact = answer.map fun _ => false) :
    s.step directory (.write fact) = (some answer, s) := by
  have happends : ¬ m.view.Appends fact := by
    rintro ⟨hnew, -⟩
    rw [hnew] at hjudge
    cases answer <;> cases hjudge
  have hreply : m.view.reply fact = answer := by
    unfold View.reply
    rw [hjudge]
    cases answer <;> rfl
  rw [step_write_of_not_appends hstore happends, hreply]

theorem scrupulous_of_refines (hs : s.Refines directory i) (hstore : s.store = some m) :
    s.Scrupulous directory m := by
  refine ⟨fun _ => step_write_of_appends hs hstore,
    fun _ => step_write_of_not_appends hstore, ?_, ?_, ?_, ?_, ?_⟩
  · -- What is refused or known already is told by the judgement, one by one.
    intro number holder
    apply step_write_of_judge hstore
    exact if_pos holder
  · apply step_write_of_judge hstore
    simp [View.judge, view, Except.map]
  · intro term server hvoted
    apply step_write_of_judge hstore
    have hshown : m.view.votedFor term = some server := hvoted
    simp [View.judge, hshown, Except.map]
  · intro term server other hvoted hne
    apply step_write_of_judge hstore
    have hshown : m.view.votedFor term = some server := hvoted
    simp [View.judge, hshown, hne, Except.map]
  · intro root hroot
    apply step_write_of_judge hstore
    exact if_pos hroot

/-! ## The ledgers -/

/-- At every moment of a session that starts where none of the files is there: the file of the
    terms is the frames of growing positive terms, the file of the votes the frames of votes for
    different terms, and the file of the root principal one frame at most. While a store is open, or
    as long as no crash has happened, there is nothing else in them. An open store shows the last of
    the terms, or none has been written; it shows these votes and this root principal; and each
    request to write puts one frame behind one file, or does nothing at all. -/
theorem ledger_of_run {directory : String} {d : Disk}
    (hempty : ∀ kind, d.node? (place directory d kind) = none) (labels : List Label) :
    let s := run directory ⟨d, none⟩ labels
    ∃ h : History, h.Orderly ∧
      (s.store.isSome ∨ (∀ fact kept, .crash fact kept ∉ labels) →
        ∀ kind, s.bytes directory kind = encodeAll (h.payloads kind)) ∧
      ∀ m, s.store = some m →
        m.term = h.terms.getLastD 0 ∧ (m.term = 0 → h.terms = []) ∧
        m.votes.Perm h.votes ∧ h.roots = m.root.toList ∧ s.Scrupulous directory m := by
  intro s
  obtain ⟨i, hs, ho, hwhole⟩ := run_orderly (refines_empty hempty) History.orderly_empty labels
  refine ⟨i.history, ho, ?_, ?_⟩
  · intro hcase kind
    have hw : Whole directory s.disk := by
      rcases hcase with hopen | hcalm
      · obtain ⟨m, hstore⟩ := Option.isSome_iff_exists.1 hopen
        exact whole_of_isOpen hs (hs.serves hstore).1
      · exact hwhole hcalm (whole_of_empty hempty)
    rw [← hs.recovers.intact_eq kind]
    exact hw kind
  · intro m hstore
    obtain ⟨hterm, hvotes, hroot⟩ := View.mk.inj (hs.view_eq hstore)
    refine ⟨hterm, ?_, ?_, ?_, scrupulous_of_refines hs hstore⟩
    · -- The last of the terms is positive, if there is one.
      intro hzero
      rcases List.eq_nil_or_concat i.history.terms with hnone | ⟨earlier, last, hterms⟩
      · exact hnone
      · rw [List.concat_eq_append] at hterms
        have hlast : m.term = last := by rw [hterm, hterms, List.getLastD_concat]
        have hpositive := ho.positive last (by simp [hterms])
        rw [← hlast, hzero] at hpositive
        exact absurd hpositive (Int64.lt_irrefl)
    · rw [hvotes]
      exact ho.votes_perm
    · rw [hroot]
      exact ho.roots_eq

/-- A term and a vote in an empty directory, and a reopening: the file of the votes holds one frame,
    and a second vote of the term is refused. -/
theorem ledger_of_run_with_one_vote :
    let d := Disk.empty ["data"]
    let s := run "/data" ⟨d, none⟩
      [.openStore, .write (.term 2), .write (.vote ⟨2, "a"⟩), .close, .openStore]
    (∀ kind, d.node? (place "/data" d kind) = none) ∧
      s.bytes "/data" .vote = encode (Payload.ofVote ⟨2, "a"⟩) ∧
      s.step "/data" (.write (.vote ⟨2, "b"⟩)) = (some (.error (.alreadyVoted "a" 2)), s) := by
  intro d s
  obtain ⟨husable, hempty⟩ := usable_of_empty_disk
  have hrun : s.Refines "/data" _ := (run_of_usable (refines_empty hempty) husable _).1
  obtain ⟨h, -, hbytes, hopen⟩ := ledger_of_run hempty
    [.openStore, .write (.term 2), .write (.vote ⟨2, "a"⟩), .close, .openStore]
  refine ⟨hempty, ?_⟩
  cases hstore : s.store with
  | none => exact absurd (hrun.isOpen_of_none hstore) (by decide)
  | some m =>
    obtain ⟨-, -, hvotes, -, hscrupulous⟩ := hopen m hstore
    have hview : m.view = ⟨2, [⟨2, "a"⟩], none⟩ := by
      rw [hrun.view_eq hstore]
      decide
    obtain ⟨-, hshown, -⟩ := View.mk.inj hview
    refine ⟨?_, ?_⟩
    · rw [hshown] at hvotes
      have hfile := hbytes (.inl (Option.isSome_iff_exists.2 ⟨m, hstore⟩)) .vote
      rw [hfile, History.payloads, List.perm_singleton.1 hvotes.symm]
      rfl
    · apply hscrupulous.otherVote
      · rw [votedFor, hshown]
        rfl
      · decide

end Session

end ReplicaStore.Metadata
