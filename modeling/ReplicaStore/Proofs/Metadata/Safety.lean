import ReplicaStore.Proofs.Metadata.Session

/-! # Consensus safety

    What a replica has promised stays promised. Over every run on a directory that was empty at
    first, whatever is written, closed, reopened, and torn by a crash in the middle of a request:

    * the requests to vote in one term that are granted name one server, and the store shows it
      from the first of them on;
    * the current term never goes back, and never falls below a term that was granted;
    * the root principal is granted once, and the store shows it from then on.

    The history of a session only grows (`run_refines`), and a fact that it knows once is known to
    every history that extends it. -/

namespace ReplicaStore.Metadata

/-! ## Known facts -/

/-- Whether a view shows a fact, or a later term. -/
def View.Knows (w : View) : Fact → Prop
  | .term number => number ≤ w.term
  | .vote v => w.votedFor v.term = some v.server
  | .root r => w.root = some r

theorem View.Knows.persist {w w' : View} {fact : Fact} (h : w.Knows fact) (hext : w.Extends w') :
    w'.Knows fact := by
  cases fact with
  | term number => exact Int64.le_trans h hext.term
  | vote v => exact hext.vote v.term v.server h
  | root r => exact hext.root r h

theorem View.knows_learn (w : View) (fact : Fact) : (w.learn fact).Knows fact := by
  cases fact with
  | term number => exact Int64.le_refl number
  | vote v =>
    show (w.votes.set v).server? v.term = some v.server
    rw [Votes.server?_set, if_pos rfl]
  | root r => rfl

/-- A fact that is judged known is shown. -/
theorem View.knows_of_judge {w : View} {fact : Fact} (h : w.judge fact = .ok false) :
    w.Knows fact := by
  cases fact with
  | term number =>
    simp only [View.judge] at h
    split at h
    · cases h
    · have hsame : number = w.term := by simpa using h
      rw [hsame]
      exact Int64.le_refl w.term
  | vote v =>
    simp only [View.judge] at h
    show w.votedFor v.term = some v.server
    cases hvoted : w.votedFor v.term with
    | none => simp [hvoted] at h
    | some server =>
      simp only [hvoted] at h
      split at h
      · rename_i hsame
        rw [hsame]
      · cases h
  | root r =>
    simp only [View.judge] at h
    split at h <;> simp at h

/-- A request that is granted leaves its fact known. -/
theorem History.knows_write {h : History} {fact : Fact} (hreply : h.view.reply fact = .ok ()) :
    (h.write fact).view.Knows fact := by
  unfold History.write
  -- A granted fact was known before, or is appended now.
  rcases View.reply_eq_ok_iff.1 hreply with hknown | happends
  · split
    · rw [History.view_add]
      exact h.view.knows_learn fact
    · exact View.knows_of_judge hknown
  · rw [if_pos happends, History.view_add]
    exact h.view.knows_learn fact

/-! ## Granted requests -/

namespace Session

variable {directory : String} {s : Session} {i : Ideal} {fact : Fact}

/-- Whether a session grants a request to write a fact. -/
def Grants (directory : String) (s : Session) (fact : Fact) : Prop :=
  (s.step directory (.write fact)).1 = some (.ok ())

/-- The session after a request to write a fact and a run. -/
def after (directory : String) (s : Session) (fact : Fact) (labels : List Label) : Session :=
  (s.step directory (.write fact)).2.run directory labels

theorem Grants.reply (hg : s.Grants directory fact) (hs : s.Refines directory i) :
    i.history.view.reply fact = .ok () ∧
      (s.step directory (.write fact)).2.Refines directory ⟨i.history.write fact, true⟩ := by
  obtain ⟨hanswer, hs', -⟩ := follows_write hs fact
  rw [show (s.step directory (.write fact)).1 = some (.ok ()) from hg] at hanswer
  simp only [Ideal.step] at hanswer hs'
  -- Only an open store gives an answer, so the session was open.
  split at hanswer
  · rename_i hopen
    rw [if_pos hopen] at hs'
    exact ⟨(Option.some.inj hanswer).symm, hs'⟩
  · cases hanswer

/-- A fact that is granted is known ever after. -/
theorem Grants.knows_after (hg : s.Grants directory fact) (hs : s.Refines directory i)
    (labels : List Label) :
    ∃ i', (s.after directory fact labels).Refines directory i' ∧
      i.history.view.Extends i'.history.view ∧ i'.history.view.Knows fact := by
  obtain ⟨hreply, hs'⟩ := hg.reply hs
  obtain ⟨i', hrun, hextends⟩ := run_refines hs' labels
  have hknows := (History.knows_write hreply).persist hextends
  exact ⟨i', hrun, (History.extends_write i.history fact).trans hextends, hknows⟩

/-- Two facts that are granted one after the other are both known in the end. -/
theorem Grants.knows_both {other : Fact} {labels : List Label} (hg : s.Grants directory fact)
    (hs : s.Refines directory i)
    (hother : (s.after directory fact labels).Grants directory other) :
    ∃ w : View, w.Knows fact ∧ w.Knows other := by
  obtain ⟨i', hrun, -, hknows⟩ := hg.knows_after hs labels
  obtain ⟨i'', -, hextends, hknows'⟩ := hother.knows_after hrun []
  exact ⟨i''.history.view, hknows.persist hextends, hknows'⟩

/-! ## Safety -/

/-- What holds of every two moments of a session, from a moment on. -/
structure Safe (directory : String) (s : Session) : Prop where
  /-- A vote that is granted is shown at every later moment. -/
  vote : ∀ v labels m, s.Grants directory (.vote v) →
    (s.after directory (.vote v) labels).store = some m → m.votedFor v.term = some v.server
  /-- Votes that are granted for one term name one server. -/
  oneVote : ∀ v v' labels, v'.term = v.term → s.Grants directory (.vote v) →
    (s.after directory (.vote v) labels).Grants directory (.vote v') → v'.server = v.server
  /-- The term never goes back. -/
  term : ∀ labels m m', s.store = some m → (s.run directory labels).store = some m' →
    m.term ≤ m'.term
  /-- The term never falls below one that was granted. -/
  grantedTerm : ∀ number labels m, s.Grants directory (.term number) →
    (s.after directory (.term number) labels).store = some m → number ≤ m.term
  /-- A root principal that is granted is shown at every later moment. -/
  root : ∀ r labels m, s.Grants directory (.root r) →
    (s.after directory (.root r) labels).store = some m → m.readRoot = .ok r
  /-- Once a root principal is granted, no other is. -/
  oneRoot : ∀ r r' labels, s.Grants directory (.root r) →
    ¬ (s.after directory (.root r) labels).Grants directory (.root r')

theorem safe_of_refines (hs : s.Refines directory i) : s.Safe directory where
  vote v labels m hg hstore := by
    obtain ⟨i', hrun, -, hknows⟩ := hg.knows_after hs labels
    rw [← hrun.view_eq hstore] at hknows
    exact hknows
  oneVote v v' labels hterm hg hg' := by
    obtain ⟨w, hknows, hknows'⟩ := hg.knows_both hs hg'
    have hvote : w.votedFor v.term = some v.server := hknows
    have hvote' : w.votedFor v'.term = some v'.server := hknows'
    rw [hterm, hvote] at hvote'
    exact (Option.some.inj hvote').symm
  term labels m m' hstore hstore' := by
    obtain ⟨i', hrun, hextends⟩ := run_refines hs labels
    rw [← hs.view_eq hstore, ← hrun.view_eq hstore'] at hextends
    exact hextends.term
  grantedTerm number labels m hg hstore := by
    obtain ⟨i', hrun, -, hknows⟩ := hg.knows_after hs labels
    rw [← hrun.view_eq hstore] at hknows
    exact hknows
  root r labels m hg hstore := by
    obtain ⟨i', hrun, -, hknows⟩ := hg.knows_after hs labels
    rw [← hrun.view_eq hstore] at hknows
    have hroot : m.root = some r := hknows
    rw [readRoot, hroot]
  oneRoot r r' labels hg hg' := by
    obtain ⟨i', hrun, -, hknows⟩ := hg.knows_after hs labels
    have hroot : i'.history.view.root = some r := hknows
    -- A second one would have to be known, which a root principal never counts as, or to be new.
    rcases View.reply_eq_ok_iff.1 (hg'.reply hrun).1 with hjudge | happends
    · simp [View.judge, hroot] at hjudge
    · rw [View.judge_root_eq_true_iff.1 happends.1] at hroot
      cases hroot

/-- Every session that starts on a directory where none of the files is there is safe at every
    moment. -/
theorem safe_run {directory : String} {d : Disk}
    (hempty : ∀ kind, d.node? (place directory d kind) = none) (labels : List Label) :
    (Session.run directory ⟨d, none⟩ labels).Safe directory := by
  obtain ⟨i, hrun, -⟩ := run_refines (refines_empty hempty) labels
  exact safe_of_refines hrun

/-- An empty directory on which a vote is granted, torn at once by a crash after a second one. -/
theorem safe_run_of_empty_disk :
    (∀ kind, (Disk.empty ["data"]).node? (place "/data" (Disk.empty ["data"]) kind) = none) ∧
      (Session.run "/data" ⟨Disk.empty ["data"], none⟩ [.openStore]).Grants "/data"
        (.vote ⟨1, "a"⟩) ∧
      (Session.run "/data" ⟨Disk.empty ["data"], none⟩
        [.openStore, .write (.vote ⟨1, "a"⟩), .crash (.vote ⟨2, "b"⟩) 5, .openStore]).Safe
          "/data" := by
  obtain ⟨husable, hempty⟩ := usable_of_empty_disk
  refine ⟨hempty, ?_, safe_run hempty _⟩
  obtain ⟨hopen, hopenUsable⟩ := run_of_usable (refines_empty hempty) husable [.openStore]
  exact (follows_write hopen (.vote ⟨1, "a"⟩)).answer

end Session

end ReplicaStore.Metadata
