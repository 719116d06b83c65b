import ReplicaStore.Proofs.Metadata.Store

/-! # Sessions of a metadata store

    What can happen to the store of one directory in the course of time: it is opened, asked to
    write facts, and closed; or the process dies in the middle of a request. A session takes these
    steps on a disk, through the definitions that run; an ideal session takes them on a history.

    * `Refines`: a session does what an ideal session does.
    * `step_refines`, `run_refines`: every step, and so every run, keeps to it. Only opening can
      fail where an ideal session cannot, and only on a disk that is not usable.
    * `trace_eq`: on a usable disk, the answers and everything that is shown are those of the ideal
      session. -/

namespace ReplicaStore.Metadata

/-! ## Steps -/

inductive Label where
  /-- It is opened; a store that is open is dropped first. -/
  | openStore
  | close
  | write (fact : Fact)
  /-- It is asked to write a fact, and the process dies when the given number of bytes of the frame
      have come to the end of the file. -/
  | crash (fact : Fact) (kept : Nat)

abbrev Answer := Option (Except Error Unit)

/-- A disk, and the store while one is open. -/
structure Session where
  disk : Disk
  store : Option Metadata

/-- A history, and whether a store is open. -/
structure Ideal where
  history : History
  isOpen : Bool

namespace Session

/-- A step: its answer, and the session after it. -/
def step (directory : String) (s : Session) : Label → Answer × Session
  | .openStore =>
    let (r, d) := (openAt directory).perform s.disk
    (some (r.map fun _ => ()), ⟨d, r.toOption⟩)
  | .close => (none, ⟨s.disk, none⟩)
  | .write fact =>
    match s.store with
    | none => (none, s)
    | some m =>
      match (m.write fact).perform s.disk with
      | (.ok m', d) => (some (.ok ()), ⟨d, some m'⟩)
      | (.error e, d) => (some (.error e), ⟨d, some m⟩)
  | .crash fact kept =>
    match s.store with
    | none => (none, s)
    | some m => (none, ⟨m.tear fact kept s.disk, none⟩)

def run (directory : String) (s : Session) (labels : List Label) : Session :=
  labels.foldl (fun s label => (s.step directory label).2) s

/-- What the store shows, while it is open. -/
def shown (s : Session) : Option View :=
  s.store.map view

/-- What an observer sees of a run: the answer to every step, and what is shown after it. -/
def trace (directory : String) (s : Session) : List Label → List (Answer × Option View)
  | [] => []
  | label :: labels =>
    let (answer, s') := s.step directory label
    (answer, s'.shown) :: trace directory s' labels

end Session

namespace Ideal

def step (i : Ideal) : Label → Answer × Ideal
  | .openStore => (some (.ok ()), ⟨i.history, true⟩)
  | .close => (none, ⟨i.history, false⟩)
  | .write fact =>
    if i.isOpen then (some (i.history.view.reply fact), ⟨i.history.write fact, true⟩)
    else (none, i)
  | .crash fact kept =>
    if i.isOpen then (none, ⟨i.history.tear fact kept, false⟩) else (none, i)

def run (i : Ideal) (labels : List Label) : Ideal :=
  labels.foldl (fun i label => (i.step label).2) i

def shown (i : Ideal) : Option View :=
  if i.isOpen then some i.history.view else none

def trace (i : Ideal) : List Label → List (Answer × Option View)
  | [] => []
  | label :: labels =>
    let (answer, i') := i.step label
    (answer, i'.shown) :: trace i' labels

theorem extends_step (i : Ideal) (label : Label) :
    i.history.view.Extends (i.step label).2.history.view := by
  cases label with
  | openStore => exact .refl _
  | close => exact .refl _
  | write fact =>
    simp only [step]
    split
    · exact History.extends_write i.history fact
    · exact .refl _
  | crash fact kept =>
    simp only [step]
    split
    · exact History.extends_tear i.history fact kept
    · exact .refl _

end Ideal

/-! ## Refinement -/

/-- Whether a session does what an ideal one does. -/
def Session.Refines (directory : String) (s : Session) (i : Ideal) : Prop :=
  match s.store with
  | none => i.isOpen = false ∧ Recovers directory s.disk i.history
  | some m => i.isOpen = true ∧ Serves directory m s.disk i.history

namespace Session

variable {directory : String} {s : Session} {i : Ideal}

theorem Refines.shown_eq (hs : s.Refines directory i) : s.shown = i.shown := by
  unfold Refines at hs
  unfold shown Ideal.shown
  split at hs
  · rename_i hstore
    rw [hstore, hs.1]
    rfl
  · rename_i m hstore
    rw [hstore, hs.1, ← hs.2.shows]
    rfl

theorem Refines.recovers (hs : s.Refines directory i) :
    Recovers directory s.disk i.history := by
  unfold Refines at hs
  split at hs
  · exact hs.2
  · exact hs.2.recovers

theorem Refines.isOpen_of_none (hs : s.Refines directory i) (hstore : s.store = none) :
    i.isOpen = false := by
  unfold Refines at hs
  rw [hstore] at hs
  exact hs.1

theorem Refines.serves {m : Metadata} (hs : s.Refines directory i) (hstore : s.store = some m) :
    i.isOpen = true ∧ Serves directory m s.disk i.history := by
  unfold Refines at hs
  rw [hstore] at hs
  exact hs

/-- What an open store shows is what the history shows. -/
theorem Refines.view_eq {m : Metadata} (hs : s.Refines directory i) (hstore : s.store = some m) :
    m.view = i.history.view :=
  (hs.serves hstore).2.shows

/-! ## Steps that follow the ideal ones -/

/-- Whether a step does what the ideal step does, and keeps a usable disk usable. -/
structure Follows (directory : String) (s : Session) (i : Ideal) (label : Label) : Prop where
  answer : (s.step directory label).1 = (i.step label).1
  refines : (s.step directory label).2.Refines directory (i.step label).2
  usable : Usable directory s.disk → Usable directory (s.step directory label).2.disk

/-- A step follows an ideal step that has the same answer and leads to a session that the session
    after it refines. -/
theorem follows_of_step {label : Label} {answer : Answer} {s' : Session} {i' : Ideal}
    (hstep : s.step directory label = (answer, s')) (histep : i.step label = (answer, i'))
    (hrefines : s'.Refines directory i')
    (husable : Usable directory s.disk → Usable directory s'.disk) :
    s.Follows directory i label := by
  refine ⟨?_, ?_, ?_⟩
  · rw [hstep, histep]
  · rw [hstep, histep]
    exact hrefines
  · rw [hstep]
    exact husable

/-- A store that is not open does nothing, and neither does an ideal one. -/
theorem follows_of_closed {label : Label} (hs : s.Refines directory i)
    (hstep : s.step directory label = (none, s)) (histep : i.step label = (none, i)) :
    s.Follows directory i label :=
  follows_of_step hstep histep hs id

theorem follows_write (hs : s.Refines directory i) (fact : Fact) :
    s.Follows directory i (.write fact) := by
  cases hstore : s.store with
  | none =>
    apply follows_of_closed hs
    · simp only [step, hstore]
    · simp only [Ideal.step, hs.isOpen_of_none hstore, Bool.false_eq_true, if_false]
  | some m =>
    obtain ⟨hopen, hserves⟩ := hs.serves hstore
    have hwrite := hserves.write fact
    have histep : i.step (.write fact) =
        (some (i.history.view.reply fact), ⟨i.history.write fact, true⟩) := by
      simp only [Ideal.step, hopen, if_true]
    -- A refusal leaves the history; a grant writes the fact to it, unless the fact is in it.
    cases hreply : i.history.view.reply fact with
    | error e =>
      rw [hreply] at hwrite
      obtain ⟨hperform, hsame⟩ := hwrite
      have hstep : s.step directory (.write fact) = (some (.error e), ⟨s.disk, some m⟩) := by
        simp only [step, hstore, hperform]
      rw [hreply, hsame] at histep
      exact follows_of_step hstep histep ⟨rfl, hserves⟩ id
    | ok u =>
      rw [hreply] at hwrite
      obtain ⟨m', d', hperform, hserves'⟩ := hwrite
      have hstep : s.step directory (.write fact) = (some (.ok ()), ⟨d', some m'⟩) := by
        simp only [step, hstore, hperform]
      rw [hreply] at histep
      exact follows_of_step hstep histep ⟨rfl, hserves'⟩ fun _ => hserves'.usable

theorem follows_crash (hs : s.Refines directory i) (fact : Fact) (kept : Nat) :
    s.Follows directory i (.crash fact kept) := by
  cases hstore : s.store with
  | none =>
    apply follows_of_closed hs
    · simp only [step, hstore]
    · simp only [Ideal.step, hs.isOpen_of_none hstore, Bool.false_eq_true, if_false]
  | some m =>
    obtain ⟨hopen, hserves⟩ := hs.serves hstore
    -- What the torn frame leaves recovers to the torn history, and the store is closed.
    obtain ⟨hrecovers, husable⟩ := hserves.tear fact kept
    have hstep : s.step directory (.crash fact kept) =
        (none, ⟨m.tear fact kept s.disk, none⟩) := by
      simp only [step, hstore]
    have histep : i.step (.crash fact kept) = (none, ⟨i.history.tear fact kept, false⟩) := by
      simp only [Ideal.step, hopen, if_true]
    exact follows_of_step hstep histep ⟨rfl, hrecovers⟩ fun _ => husable

/-- Opening follows the ideal step, or fails; it never fails on a usable disk. -/
theorem follows_openStore (hs : s.Refines directory i) :
    s.Follows directory i .openStore ∨
      ¬ Usable directory s.disk ∧
        (s.step directory .openStore).2.Refines directory ⟨i.history, false⟩ ∧
        ∃ e, (s.step directory .openStore).1 = some (.error e) := by
  rcases perform_openAt hs.recovers with ⟨m, d', hopen, hserves⟩ | ⟨e, d', hopen, hr, hu⟩
  · have hstep : s.step directory .openStore = (some (.ok ()), ⟨d', some m⟩) := by
      simp only [step, hopen]
      rfl
    exact .inl (follows_of_step hstep rfl ⟨rfl, hserves⟩ fun _ => hserves.usable)
  · have hstep : s.step directory .openStore = (some (.error e), ⟨d', none⟩) := by
      simp only [step, hopen]
      rfl
    rw [hstep]
    exact .inr ⟨hu, ⟨rfl, hr⟩, e, rfl⟩

/-- Every step follows the ideal one; only opening can fail, on a disk that is not usable, and
    leaves the history even then. -/
theorem step_refines (hs : s.Refines directory i) (label : Label) :
    s.Follows directory i label ∨
      ¬ Usable directory s.disk ∧
        (s.step directory label).2.Refines directory ⟨i.history, false⟩ ∧
        ∃ e, (s.step directory label).1 = some (.error e) := by
  cases label with
  | openStore => exact follows_openStore hs
  | close => exact .inl ⟨rfl, ⟨rfl, hs.recovers⟩, id⟩
  | write fact => exact .inl (follows_write hs fact)
  | crash fact kept => exact .inl (follows_crash hs fact kept)

theorem follows_of_usable (hs : s.Refines directory i) (hu : Usable directory s.disk)
    (label : Label) : s.Follows directory i label := by
  rcases step_refines hs label with hfollows | ⟨hnot, -⟩
  · exact hfollows
  · exact absurd hu hnot

/-! ## Runs -/

/-- Every run keeps to a history, which only grows. -/
theorem run_refines (hs : s.Refines directory i) (labels : List Label) :
    ∃ i', (s.run directory labels).Refines directory i' ∧
      i.history.view.Extends i'.history.view := by
  -- By induction on the run. Where opening fails the ideal session is replaced by a closed one of
  -- the same history, so it is not the ideal run that is followed, but its history still grows.
  induction labels generalizing s i with
  | nil => exact ⟨i, hs, .refl _⟩
  | cons label labels ih =>
    rcases step_refines hs label with ⟨-, hs', -⟩ | ⟨-, hs', -⟩
    · obtain ⟨i', hrun, hextends⟩ := ih hs'
      exact ⟨i', hrun, (i.extends_step label).trans hextends⟩
    · exact ih (i := ⟨i.history, false⟩) hs'

/-- On a usable disk, every run does what the ideal run does. -/
theorem run_of_usable (hs : s.Refines directory i) (hu : Usable directory s.disk)
    (labels : List Label) :
    (s.run directory labels).Refines directory (i.run labels) ∧
      Usable directory (s.run directory labels).disk := by
  -- Usability is part of the invariant here: it is what rules failures out.
  induction labels generalizing s i with
  | nil => exact ⟨hs, hu⟩
  | cons label labels ih =>
    have hfollows := follows_of_usable hs hu label
    exact ih hfollows.refines (hfollows.usable hu)

/-- On a usable disk, an observer cannot tell a session from the ideal one. -/
theorem trace_eq (hs : s.Refines directory i) (hu : Usable directory s.disk)
    (labels : List Label) : s.trace directory labels = i.trace labels := by
  -- By induction on the run; the invariant is that the session refines the ideal one, on a usable
  -- disk.
  induction labels generalizing s i with
  | nil => rfl
  | cons label labels ih =>
    have hfollows := follows_of_usable hs hu label
    show ((s.step directory label).1, (s.step directory label).2.shown) ::
        (s.step directory label).2.trace directory labels = _
    rw [hfollows.answer, hfollows.refines.shown_eq, ih hfollows.refines (hfollows.usable hu)]
    rfl

/-- A disk that holds nothing but its working directory is usable, and none of the files is
    there. -/
theorem usable_of_empty_disk :
    Usable "/data" (Disk.empty ["data"]) ∧
      ∀ kind, (Disk.empty ["data"]).node? (place "/data" (Disk.empty ["data"]) kind) = none := by
  refine ⟨⟨rfl, ?_⟩, ?_⟩
  · intro kind
    cases kind <;> rfl
  · intro kind
    cases kind <;> rfl

/-- The session on a disk where none of the files is there. -/
theorem refines_empty {d : Disk}
    (hempty : ∀ kind, d.node? (place directory d kind) = none) :
    Refines directory ⟨d, none⟩ ⟨.empty, false⟩ := by
  refine ⟨rfl, History.fits_empty, ?_⟩
  intro kind
  have hbytes : d.bytesAt (place directory d kind) = [] := by
    simp [Disk.bytesAt, hempty kind]
  have hpayloads : History.empty.payloads kind = [] := by
    cases kind <;> rfl
  rw [hbytes, hpayloads]
  have hnone : ∀ p ∈ ([] : List Bytes), p.length < Frame.payloadLimit := by simp
  exact RecordFile.recover_encodeAll hnone

end Session

end ReplicaStore.Metadata
