import ReplicaStore.Proofs.Metadata.Session

/-! # Crash atomicity

    A request to write a fact happens as a whole or not at all. If the process dies in the middle
    of it, the store that is opened next is the one before the request, or the one after it where
    the whole frame has come to the file; nothing that is done later tells the difference.

    Both stores serve one history (`reopened_refines`, `survivor_refines`), and what a store does
    depends on its history alone. -/

namespace ReplicaStore.Metadata.Session

open ReplicaStore.Frame

variable {directory : String} {s : Session} {i : Ideal} {m : Metadata} {fact : Fact}

/-- The session that outlives a crash, as if there had been none: before the request, or after it
    where its whole frame is kept. -/
def survivor (directory : String) (s : Session) (fact : Fact) (kept : Nat) : Session :=
  if kept < (encode fact.payload).length then s else (s.step directory (.write fact)).2

/-- The session after a crash, opened anew. -/
def reopened (directory : String) (s : Session) (fact : Fact) (kept : Nat) : Session :=
  ((s.step directory (.crash fact kept)).2.step directory .openStore).2

/-! ## One history -/

/-- On a usable disk, opening is answered with success. -/
theorem open_of_usable (hs : s.Refines directory i) (hu : Usable directory s.disk) :
    (s.step directory .openStore).1 = some (.ok ()) ∧
      (s.step directory .openStore).2.Refines directory ⟨i.history, true⟩ ∧
      Usable directory (s.step directory .openStore).2.disk := by
  have hfollows := follows_of_usable hs hu .openStore
  exact ⟨hfollows.answer, hfollows.refines, hfollows.usable hu⟩

theorem reopened_refines (hs : s.Refines directory i) (hstore : s.store = some m) (fact : Fact)
    (kept : Nat) :
    ((s.step directory (.crash fact kept)).2.step directory .openStore).1 = some (.ok ()) ∧
      (s.reopened directory fact kept).Refines directory ⟨i.history.tear fact kept, true⟩ ∧
      Usable directory (s.reopened directory fact kept).disk := by
  obtain ⟨hopen, hserves⟩ := hs.serves hstore
  have hfollows := follows_crash hs fact kept
  have hcrash := hfollows.refines
  simp only [Ideal.step, hopen, if_true] at hcrash
  exact open_of_usable hcrash (hfollows.usable hserves.usable)

theorem survivor_refines (hs : s.Refines directory i) (hstore : s.store = some m) (fact : Fact)
    (kept : Nat) :
    (s.survivor directory fact kept).Refines directory ⟨i.history.tear fact kept, true⟩ ∧
      Usable directory (s.survivor directory fact kept).disk := by
  obtain ⟨hopen, hserves⟩ := hs.serves hstore
  -- The session and the history split on the same condition: whether the frame is whole.
  unfold survivor History.tear
  split
  · have hi : i = ⟨i.history, true⟩ := by
      rw [← hopen]
    rw [hi] at hs
    exact ⟨hs, hserves.usable⟩
  · have hfollows := follows_write hs fact
    have hwrite := hfollows.refines
    simp only [Ideal.step, hopen, if_true] at hwrite
    exact ⟨hwrite, hfollows.usable hserves.usable⟩

/-- An open session holds whole records and nothing else. -/
theorem Refines.bytesAt (hs : s.Refines directory i) (hopen : i.isOpen = true) (kind : Kind) :
    s.disk.bytesAt (place directory s.disk kind) = encodeAll (i.history.payloads kind) := by
  cases hstore : s.store with
  | none =>
    rw [hs.isOpen_of_none hstore] at hopen
    cases hopen
  | some m => exact (hs.serves hstore).2.bytesAt kind

/-! ## Atomicity -/

/-- What a crash in the middle of a request leaves behind. -/
structure Atomic (directory : String) (s : Session) (fact : Fact) (kept : Nat) : Prop where
  /-- The bytes of the frame that were kept stand at the end of its file. -/
  torn : (s.step directory (.crash fact kept)).2.disk.bytesAt
      (place directory s.disk fact.kind) =
    s.disk.bytesAt (place directory s.disk fact.kind) ++ (encode fact.payload).take kept
  /-- The other files are as they were. -/
  others : ∀ kind, kind ≠ fact.kind →
    (s.step directory (.crash fact kept)).2.disk.bytesAt (place directory s.disk kind) =
      s.disk.bytesAt (place directory s.disk kind)
  /-- The store is opened again. -/
  opens : ((s.step directory (.crash fact kept)).2.step directory .openStore).1 = some (.ok ())
  /-- It shows what the store before the request shows, or the store after it. -/
  shows : (s.reopened directory fact kept).shown = (s.survivor directory fact kept).shown
  /-- Its files hold the records that one has, whole, and nothing else. -/
  whole : ∀ kind, ∃ payloads, (∀ p ∈ payloads, p.length < payloadLimit) ∧
    (s.reopened directory fact kept).disk.bytesAt
      (place directory (s.reopened directory fact kept).disk kind) = encodeAll payloads ∧
    (s.survivor directory fact kept).disk.bytesAt
      (place directory (s.survivor directory fact kept).disk kind) = encodeAll payloads
  /-- No later run tells the two apart. -/
  later : ∀ labels, (s.reopened directory fact kept).trace directory labels =
    (s.survivor directory fact kept).trace directory labels

theorem atomic_of_refines (hs : s.Refines directory i) (hstore : s.store = some m)
    (happends : m.view.Appends fact) (kept : Nat) : s.Atomic directory fact kept := by
  have hserves := (hs.serves hstore).2
  have happends' : i.history.view.Appends fact := by
    rw [← hs.view_eq hstore]
    exact happends
  obtain ⟨htouches, hbytes⟩ := hserves.touches_tear happends' kept
  obtain ⟨hanswer, hreopened, hreopenedUsable⟩ := reopened_refines hs hstore fact kept
  obtain ⟨hsurvivor, hsurvivorUsable⟩ := survivor_refines hs hstore fact kept
  have hdisk : (s.step directory (.crash fact kept)).2.disk = m.tear fact kept s.disk := by
    simp only [step, hstore]
  -- Both sessions refine one ideal session, which is all that the last three goals ask for.
  refine ⟨?_, ?_, hanswer, ?_, ?_, ?_⟩
  · rw [hdisk, hbytes, hserves.bytesAt fact.kind]
  · intro kind hne
    rw [hdisk]
    exact Disk.bytesAt_congr (htouches.but.node _ (place_ne hne))
  · exact hreopened.shown_eq.trans hsurvivor.shown_eq.symm
  · intro kind
    exact ⟨_, hreopened.recovers.fits kind, hreopened.bytesAt rfl kind, hsurvivor.bytesAt rfl kind⟩
  · intro labels
    rw [trace_eq hsurvivor hsurvivorUsable]
    exact trace_eq hreopened hreopenedUsable labels

/-- In every session that starts on a directory where none of the files is there, a crash in the
    middle of a request that appends is atomic, whatever it leaves of the frame; and a store that
    is closed and opened again shows what it showed. -/
theorem crash_atomic {directory : String} {d : Disk}
    (hempty : ∀ kind, d.node? (place directory d kind) = none) {labels : List Label}
    {m : Metadata} (hstore : (run directory ⟨d, none⟩ labels).store = some m) :
    let s := run directory ⟨d, none⟩ labels
    (∀ fact kept, m.view.Appends fact → s.Atomic directory fact kept) ∧
      ((s.step directory .close).2.step directory .openStore).1 = some (.ok ()) ∧
      ((s.step directory .close).2.step directory .openStore).2.shown = some m.view := by
  intro s
  obtain ⟨i, hs, -⟩ := run_refines (refines_empty hempty) labels
  refine ⟨?_, ?_⟩
  · intro fact kept happends
    exact atomic_of_refines hs hstore happends kept
  · have hserves := (hs.serves hstore).2
    have hclosed : (s.step directory .close).2.Refines directory ⟨i.history, false⟩ :=
      ⟨rfl, hserves.recovers⟩
    obtain ⟨hanswer, hopened, -⟩ := open_of_usable hclosed hserves.usable
    refine ⟨hanswer, ?_⟩
    rw [hopened.shown_eq, hs.view_eq hstore]
    rfl

/-- The first term of an empty directory, torn anywhere. -/
theorem crash_atomic_of_empty_disk :
    (∀ kind, (Disk.empty ["data"]).node? (place "/data" (Disk.empty ["data"]) kind) = none) ∧
      ∃ m, (run "/data" ⟨Disk.empty ["data"], none⟩ [.openStore]).store = some m ∧
        m.view.Appends (.term 7) ∧
        ∀ kept, (run "/data" ⟨Disk.empty ["data"], none⟩ [.openStore]).Atomic "/data" (.term 7)
          kept := by
  obtain ⟨husable, hempty⟩ := usable_of_empty_disk
  have hopen := (run_of_usable (refines_empty hempty) husable [.openStore]).1
  refine ⟨hempty, ?_⟩
  cases hstore : (run "/data" ⟨Disk.empty ["data"], none⟩ [.openStore]).store with
  | none => exact absurd (hopen.isOpen_of_none hstore) (by decide)
  | some m =>
    have happends : m.view.Appends (.term 7) := by
      rw [hopen.view_eq hstore]
      decide
    exact ⟨m, rfl, happends, fun kept => (crash_atomic hempty hstore).1 _ kept happends⟩

end ReplicaStore.Metadata.Session
