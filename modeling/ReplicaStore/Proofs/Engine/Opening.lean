import ReplicaStore.Proofs.Action
import ReplicaStore.Proofs.Disk.Passage
import ReplicaStore.Engine.Host

/-! # Opening and calling an engine

    An engine is opened in a directory that may be missing so far, and so may its file be. Whether
    that succeeds is a matter of the disk, of the engines that are live, and of the call itself;
    what it leaves on the disk is the directory with the engine file in it, and the rest of the disk
    as it was.

    * `Kept`: an engine file whose directory is there.
    * `Ready`: contents can be opened in a directory.
    * `perform_openEngine_of_ready`, `perform_openEngine_of_fails`: opening under a fault.
    * `ready_of_perform_ensureEngine`: where an engine file was made sure of, it could be.
    * `perform_get`, `perform_write`, `perform_compact`: calls under a fault. -/

namespace ReplicaStore.Host

open Disk

variable {f : Fault} {loc : Location} {h h' : Host} {c c' : Contents} {d : Disk}
  {directory : String}

/-! ## Contents that are kept -/

/-- Whether a disk keeps contents in the engine file of a directory, with no directory missing. -/
structure Kept (directory : String) (loc : Location) (d : Disk) (c : Contents) : Prop where
  made : d.makeDirectories directory = (.ok (), d)
  located : d.locate (Path.join directory engineFileName) = .ok loc
  node : d.node? loc = some (.engine c)

/-- Whether no live engine stands at a location. -/
def Free (loc : Location) (engines : List LiveEngine) : Prop :=
  ∀ e ∈ engines, e.location ≠ loc

theorem isLocked_eq_false_iff : h.isLocked loc = false ↔ Free loc h.engines := by
  simp [isLocked, Free]

/-- Engines elsewhere stay elsewhere, whatever is counted. -/
theorem free_recount {others : List LiveEngine} (hfree : Free loc others) (id : EngineId)
    (owners readers : Nat → Nat) :
    Free loc ((others.map fun e => if e.id = id then
      { e with owners := owners e.owners, readers := readers e.readers } else e).filter
        fun e => 0 < e.owners + e.readers) := by
  intro e' hmem'
  obtain ⟨e, hmem, rfl⟩ := List.mem_map.1 (List.mem_filter.1 hmem').1
  have hlocation := hfree e hmem
  split
  · exact hlocation
  · exact hlocation

/-- Where the directory was made once, a disk that keeps the directories keeps what stands in the
    engine file. -/
theorem kept_of_keeps (hmade : (d.makeDirectories directory).1 = .ok ()) {d' : Disk}
    (hkeeps : KeepsDirectories (d.makeDirectories directory).2 d')
    (hlocated : (d.makeDirectories directory).2.locate (Path.join directory engineFileName) =
      .ok loc)
    (hnode : d'.node? loc = some (.engine c)) : Kept directory loc d' c :=
  ⟨makeDirectories_of_keeps hmade hkeeps, locate_of_keeps hkeeps hlocated, hnode⟩

/-- Replacing what an engine file holds keeps everything else. -/
theorem Kept.put (hk : Kept directory loc d c) (c' : Contents) :
    Kept directory loc (d.put loc (.engine c')) c' := by
  -- The place holds an engine file, so putting one there takes no directory away.
  have hkeeps : KeepsDirectories d (d.put loc (.engine c')) := by
    apply (sameBut_put d loc _).keepsDirectories
    rw [hk.node]
    simp
  apply kept_of_keeps (d := d)
  · rw [hk.made]
  · rw [hk.made]
    exact hkeeps
  · rw [hk.made]
    exact hk.located
  · simp

/-! ## Directories that are ready -/

/-- Whether nothing was written yet where an engine file belongs: nothing stands there, or a plain
    file without a byte. -/
def Unwritten (n : Option Node) : Prop :=
  n = none ∨ ∃ identity, n = some (.file identity [])

theorem Unwritten.ne_directory {n : Option Node} (h : Unwritten n) : n ≠ some .directory := by
  rintro rfl
  obtain hnone | ⟨identity, hfile⟩ := h
  · cases hnone
  · cases hfile

/-- Whether contents can be opened in a directory. What is missing can be made; where nothing was
    written to the engine file, there are no contents yet. -/
structure Ready (directory : String) (loc : Location) (d : Disk) (c : Contents) : Prop where
  made : (d.makeDirectories directory).1 = .ok ()
  located : (d.makeDirectories directory).2.locate (Path.join directory engineFileName) = .ok loc
  node : (d.makeDirectories directory).2.node? loc = some (.engine c) ∨
    Unwritten ((d.makeDirectories directory).2.node? loc) ∧ c = Contents.empty

theorem Kept.ready (hk : Kept directory loc d c) : Ready directory loc d c := by
  constructor
  · rw [hk.made]
  · rw [hk.made]
    exact hk.located
  · rw [hk.made]
    exact .inl hk.node

/-- Making the directory leaves it ready. -/
theorem Ready.makeDirectories (hr : Ready directory loc d c) :
    Ready directory loc (d.makeDirectories directory).2 c := by
  have hagain := makeDirectories_of_keeps hr.made (.refl _)
  constructor
  · rw [hagain]
  · rw [hagain]
    exact hr.located
  · rw [hagain]
    exact hr.node

/-- A directory that is ready once it is made was ready before. -/
theorem Ready.of_makeDirectories (hr : Ready directory loc (d.makeDirectories directory).2 c)
    (hmade : (d.makeDirectories directory).1 = .ok ()) : Ready directory loc d c := by
  have hagain := makeDirectories_of_keeps hmade (.refl _)
  have hlocated := hr.located
  have hnode := hr.node
  rw [hagain] at hlocated hnode
  exact ⟨hmade, hlocated, hnode⟩

/-- What stands where the path of a directory's engine file leads. -/
def stored (h : Host) (directory : String) : Contents :=
  h.contentsAt (h.disk.resolve (Path.join directory engineFileName))

/-- Making directories puts no engine file anywhere, and takes none away. -/
theorem stored_makeDirectories (h : Host) (path directory : String) :
    stored { h with disk := (h.disk.makeDirectories path).2 } directory = stored h directory := by
  have hadded := onlyDirectoriesAdded_makeDirectories h.disk path
  -- Where the path leads depends on the working directory only, and that stays.
  have hresolve := resolve_congr hadded.start (Path.join directory engineFileName)
  unfold stored contentsAt
  simp only [hresolve]
  cases hnode : h.disk.node? (h.disk.resolve (Path.join directory engineFileName)) with
  | none =>
    -- A directory may be made in the very place; it has no contents, and neither had the empty
    -- place.
    rcases hadded.added _ hnode with hnone | hdirectory
    · rw [hnone]
    · rw [hdirectory]
  | some n => rw [hadded.stays _ n hnode]

theorem Ready.stored_eq (hr : Ready directory loc h.disk c) : stored h directory = c := by
  have hloc := eq_resolve_of_locate hr.located
  rw [← stored_makeDirectories h directory directory]
  unfold stored contentsAt
  simp only [← hloc]
  -- Where nothing was written yet, the contents are empty, and so is what the directory is ready
  -- for.
  rcases hr.node with hengine | ⟨hnone | ⟨identity, hfile⟩, hempty⟩
  · rw [hengine]
  · rw [hnone, hempty]
  · rw [hfile, hempty]

/-! ## Opening -/

/-- Making a directory, before any engine in it. -/
theorem perform_makeDirectory (h : Host) (directory : String) :
    (onDisk fun d =>
      let (r, d) := d.makeDirectories directory
      (r.mapError Error.io, d)).perform h =
    ((h.disk.makeDirectories directory).1.mapError Error.io,
      { h with disk := (h.disk.makeDirectories directory).2 }) := rfl

theorem perform_ensureEngine_of_ready (hr : Ready directory loc h.disk c) :
    ∃ d', (ensureEngine directory).perform h = (.ok loc, { h with disk := d' }) ∧
      Kept directory loc d' c ∧ SameBut loc (h.disk.makeDirectories directory).2 d' := by
  have hmade := hr.made
  have hlocated := hr.located
  have hnode := hr.node
  cases hmake : h.disk.makeDirectories directory with
  | mk made d₁ =>
  rw [hmake] at hmade hlocated hnode
  simp only at hmade hlocated hnode
  subst hmade
  -- Whatever is done to the engine file, the directory and the way to it are kept.
  have hkeep : ∀ d' c', KeepsDirectories d₁ d' → d'.node? loc = some (.engine c') →
      Kept directory loc d' c' := by
    intro d' c' hkeeps hengine
    apply kept_of_keeps (d := h.disk)
    · rw [hmake]
    · rw [hmake]
      exact hkeeps
    · rw [hmake]
      exact hlocated
    · exact hengine
  -- A file with contents is left alone; otherwise it is written, empty.
  rcases hnode with hengine | ⟨hunwritten, rfl⟩
  · refine ⟨d₁, ?_, hkeep d₁ c (.refl d₁) hengine, .refl loc d₁⟩
    simp only [Action.perform, ensureEngine, hmake, hlocated, hengine]
  · refine ⟨d₁.put loc (.engine Contents.empty), ?_, hkeep _ _ ?_ (by simp), sameBut_put d₁ loc _⟩
    · obtain hnone | ⟨identity, hfile⟩ := hunwritten
      · simp only [Action.perform, ensureEngine, hmake, hlocated, hnone]
        rfl
      · simp only [Action.perform, ensureEngine, hmake, hlocated, hfile]
        rfl
    · exact (sameBut_put d₁ loc _).keepsDirectories hunwritten.ne_directory

theorem perform_check_of_passes {call : Call} (hcall : f.fails call = false) :
    (Action.lift ((f.check call).mapError Error.engine) : Action Host Unit).perform h =
      (.ok (), h) := by
  rw [Fault.check_eq_ok_iff.2 hcall]
  rfl

theorem perform_check_of_fails {call : Call} (hcall : f.fails call = true) :
    (Action.lift ((f.check call).mapError Error.engine) : Action Host Unit).perform h =
      (.error (.engine call.failure), h) := by
  rw [Fault.check, if_pos hcall]
  rfl

/-- An engine whose file was made sure of is opened, unless it is open already. -/
theorem perform_openEngine_of_ensured (hcall : f.fails (.openAt directory) = false)
    (hensure : (ensureEngine directory).perform h = (.ok loc, h')) :
    (Host.openEngine f directory).perform h =
      if h'.isLocked loc then (.error (.engine .locked), h')
      else (.ok h'.nextEngine, { h' with
        engines := ⟨h'.nextEngine, loc, 1, 0⟩ :: h'.engines
        nextEngine := h'.nextEngine + 1 }) := by
  unfold Host.openEngine
  rw [Action.perform_bind_of_ok (perform_check_of_passes hcall), Action.perform_bind_of_ok hensure]
  rfl

/-- The engine of a directory that is ready is opened, unless that call fails. Behind the making of
    the directory, nothing but the engine file is touched. -/
theorem perform_openEngine_of_ready (hr : Ready directory loc h.disk c) (hfree : Free loc h.engines)
    (hcall : f.fails (.openAt directory) = false) :
    ∃ d', (Host.openEngine f directory).perform h = (.ok h.nextEngine,
        ⟨d', ⟨h.nextEngine, loc, 1, 0⟩ :: h.engines, h.nextEngine + 1⟩) ∧
      Kept directory loc d' c ∧ SameBut loc (h.disk.makeDirectories directory).2 d' := by
  obtain ⟨d', hensure, hkept, hsame⟩ := perform_ensureEngine_of_ready hr
  have hlocked : Host.isLocked { h with disk := d' } loc = false := isLocked_eq_false_iff.2 hfree
  refine ⟨d', ?_, hkept, hsame⟩
  rw [perform_openEngine_of_ensured hcall hensure, hlocked, if_neg Bool.false_ne_true]

/-- An engine that is open already is not opened, and behind the making of the directory nothing but
    its file is touched. -/
theorem perform_openEngine_of_locked (hr : Ready directory loc h.disk c)
    (hlocked : h.isLocked loc = true) (hcall : f.fails (.openAt directory) = false) :
    ∃ d', (Host.openEngine f directory).perform h =
        (.error (.engine .locked), { h with disk := d' }) ∧
      Kept directory loc d' c ∧ SameBut loc (h.disk.makeDirectories directory).2 d' := by
  obtain ⟨d', hensure, hkept, hsame⟩ := perform_ensureEngine_of_ready hr
  have hlocked' : Host.isLocked { h with disk := d' } loc = true := hlocked
  refine ⟨d', ?_, hkept, hsame⟩
  rw [perform_openEngine_of_ensured hcall hensure, hlocked', if_pos rfl]

/-- An engine whose file cannot be made sure of is not opened. -/
theorem perform_openEngine_of_ensureEngine {e : Error} (hcall : f.fails (.openAt directory) = false)
    (hensure : (ensureEngine directory).perform h = (.error e, h')) :
    (Host.openEngine f directory).perform h = (.error e, h') := by
  unfold Host.openEngine
  rw [Action.perform_bind_of_ok (perform_check_of_passes hcall),
    Action.perform_bind_of_error hensure]

theorem perform_openEngine_of_fails (hcall : f.fails (.openAt directory) = true) :
    (Host.openEngine f directory).perform h =
      (.error (.engine (Call.openAt directory).failure), h) := by
  unfold Host.openEngine
  rw [Action.perform_bind_of_error (perform_check_of_fails hcall)]

/-- Where an engine file is made sure of, the directory was ready for what it holds. -/
theorem ready_of_perform_ensureEngine
    (hensure : (ensureEngine directory).perform h = (.ok loc, h')) :
    ∃ c, Ready directory loc h.disk c ∧ h'.disk.node? loc = some (.engine c) ∧
      h'.engines = h.engines := by
  simp only [Action.perform, ensureEngine] at hensure
  split at hensure
  · cases hensure
  · rename_i d hmake
    split at hensure
    · cases hensure
    · rename_i found hlocated
      -- The calls that succeeded are those of a ready directory; only what stands at the place is
      -- open.
      have hready : ∀ c, d.node? found = some (.engine c) ∨
          Unwritten (d.node? found) ∧ c = Contents.empty → Ready directory found h.disk c := by
        intro c hnode
        constructor
        · rw [hmake]
        · rw [hmake]
          exact hlocated
        · rw [hmake]
          exact hnode
      -- By what stands there: an engine file, nothing, or an empty plain file; anything else is
      -- refused.
      split at hensure
      · rename_i c hnode
        cases hensure
        exact ⟨c, hready c (.inl hnode), hnode, rfl⟩
      · rename_i hnode
        cases hensure
        exact ⟨Contents.empty, hready _ (.inr ⟨.inl hnode, rfl⟩), by simp [setContentsAt], rfl⟩
      · rename_i identity hnode
        cases hensure
        exact ⟨Contents.empty, hready _ (.inr ⟨.inr ⟨identity, hnode⟩, rfl⟩),
          by simp [setContentsAt], rfl⟩
      · cases hensure
      · cases hensure

/-! ## Calls -/

/-- Looking up a key of a live engine, under a fault. -/
theorem perform_get (f : Fault) (id : EngineId) (key : Bytes) (h : Host) :
    (Host.get f id key).perform h =
      (if f.fails (.get key) then .error (.engine (Call.get key).failure)
        else .ok ((h.contents id).get? key), h) := by
  simp only [Action.perform, Host.get, Action.query, Fault.get, Fault.check]
  cases f.fails (.get key) with
  | true => rfl
  | false => rfl

/-- Applying a batch to a live engine, under a fault. -/
theorem perform_write (f : Fault) (id : EngineId) (batch : Batch) (h : Host) :
    (Host.write f id batch).perform h =
      if f.fails (.write batch) then (.error (.engine (Call.write batch).failure), h)
      else (.ok (), h.setContents id ((h.contents id).applyBatch batch)) := by
  simp only [Action.perform, Host.write, Fault.write, Fault.check]
  cases f.fails (.write batch) with
  | true => rfl
  | false => rfl

/-- Reclaiming the space of a live engine changes nothing that it holds. -/
theorem perform_compact (f : Fault) (id : EngineId) (h : Host) :
    (Host.compact f id).perform h =
      (if f.fails .compact then .error (.engine Call.compact.failure)
        else if h.hasReader id then .error (.engine .busy) else .ok (), h) := by
  simp only [Action.perform, Host.compact, Action.query, Fault.check]
  -- A reader stands in the way, but either way the engine holds what it held.
  cases f.fails .compact with
  | true => rfl
  | false => rfl

end ReplicaStore.Host
