import ReplicaStore.Log.Handle
import ReplicaStore.Proofs.Engine.Serving

/-! # The engine of a log on a host

    The engine of an open log is live, and no other engine stands at its location; what it holds
    is on the disk. When the log is closed the contents stay, the location is free again, and the
    directories are there, so the log can be opened again and finds what it left. If opening fails,
    whatever the reason, the engine is closed again and the contents are where they were.

    * `Attached`: what the handle of an open log has.
    * `perform_openBelow_of_ready`, `perform_openBelow_of_failure`: opening under a fault.
    * `ready_of_perform_openBelow`: where a log was opened, one could be opened before. -/

namespace ReplicaStore.LogHandle

open Disk Host

/-! ## Attached handles -/

/-- Whether a handle's engine is live and holds contents that the disk keeps. -/
structure Attached (handle : LogHandle) (loc : Location) (h : Host) (c : Contents) : Prop where
  kept : Kept handle.directory loc h.disk c
  live : ∃ others, h.engines = ⟨handle.engine, loc, 1, 0⟩ :: others ∧ Free loc others

variable {f : Fault} {handle : LogHandle} {loc : Location} {h h' : Host} {c c' : Contents}
  {d : Disk} {directory parent : String} {log : OperationLog}

theorem Attached.serving (ha : Attached handle loc h c) :
    Serving handle.directory loc h handle.engine 0 c :=
  ⟨ha.kept, ha.live⟩

theorem Attached.contents_eq (ha : Attached handle loc h c) : h.contents handle.engine = c :=
  ha.serving.contents_eq

theorem Attached.setContents (ha : Attached handle loc h c) (c' : Contents) :
    Attached handle loc (h.setContents handle.engine c') c' :=
  ⟨(ha.serving.setContents c').kept, (ha.serving.setContents c').live⟩

/-! ## Closing -/

/-- A log that is closed leaves its contents behind and its location free. -/
theorem Attached.close (ha : Attached handle loc h c) :
    Kept handle.directory loc (handle.close h).disk c ∧ Free loc (handle.close h).engines :=
  -- The handle is the engine's only owner, so the engine goes; the others stand elsewhere.
  ha.serving.dropOwner

/-! ## Opening -/

theorem perform_makeDirectory_of_ready (hr : Ready directory loc h.disk c) :
    (Host.onDisk fun d =>
      let (r, d) := d.makeDirectories directory
      (r.mapError Error.io, d)).perform h =
    (.ok (), { h with disk := (h.disk.makeDirectories directory).2 }) := by
  rw [perform_makeDirectory, hr.made]
  rfl

/-- An engine that was opened alone shows its contents. -/
theorem attached_of_kept (hk : Kept directory loc d c) (hfree : Free loc h.engines) (length : Nat)
    (lastTerm : Int64) :
    Attached ⟨directory, h.nextEngine, length, lastTerm⟩ loc
      ⟨d, ⟨h.nextEngine, loc, 1, 0⟩ :: h.engines, h.nextEngine + 1⟩ c :=
  ⟨hk, h.engines, rfl, hfree⟩

/-- A log is opened as its contents tell, where no call fails that is needed for it. -/
theorem perform_openBelow_of_ready (hr : Ready (Path.join parent directoryName) loc h.disk c)
    (hfree : Free loc h.engines)
    (hcall : f.fails (.openAt (Path.join parent directoryName)) = false)
    (hlog : OperationLog.openOn f c = .ok log) :
    ∃ handle h', (openBelow f parent).perform h = (.ok handle, h') ∧
      handle.directory = Path.join parent directoryName ∧ handle.length = log.length ∧
      handle.lastTerm = log.lastTerm ∧ Attached handle loc h' c := by
  obtain ⟨d', hengine, hkept, -⟩ := perform_openEngine_of_ready
    (h := { h with disk := (h.disk.makeDirectories (Path.join parent directoryName)).2 })
    hr.makeDirectories hfree hcall
  have hattached := attached_of_kept hkept hfree log.length log.lastTerm
  have hcontents := hattached.contents_eq
  unfold openBelow
  rw [Action.perform_bind_of_ok (perform_makeDirectory_of_ready hr),
    Action.perform_bind_of_ok hengine]
  refine ⟨_, _, ?_, rfl, rfl, rfl, hattached⟩
  simp only at hcontents
  simp only [Action.perform, hcontents, hlog]

/-- If the engine cannot be opened, the failure is the engine's, and the directory is ready again
    afterwards. -/
theorem perform_openBelow_of_fails (hr : Ready (Path.join parent directoryName) loc h.disk c)
    (hfree : Free loc h.engines)
    (hcall : f.fails (.openAt (Path.join parent directoryName)) = true) :
    ∃ h', (openBelow f parent).perform h =
        (.error (.engine (Call.openAt (Path.join parent directoryName)).failure), h') ∧
      Ready (Path.join parent directoryName) loc h'.disk c ∧ Free loc h'.engines := by
  unfold openBelow
  rw [Action.perform_bind_of_ok (perform_makeDirectory_of_ready hr),
    Action.perform_bind_of_error (perform_openEngine_of_fails hcall)]
  exact ⟨_, rfl, hr.makeDirectories, hfree⟩

/-- If what the engine holds cannot be read, the failure says why, and the directory is ready again
    afterwards. -/
theorem perform_openBelow_of_unreadable (hr : Ready (Path.join parent directoryName) loc h.disk c)
    (hfree : Free loc h.engines)
    (hcall : f.fails (.openAt (Path.join parent directoryName)) = false) {e : Error}
    (hlog : OperationLog.openOn f c = .error e) :
    ∃ h', (openBelow f parent).perform h = (.error e, h') ∧
      Ready (Path.join parent directoryName) loc h'.disk c ∧ Free loc h'.engines := by
  obtain ⟨d', hengine, hkept, -⟩ := perform_openEngine_of_ready
    (h := { h with disk := (h.disk.makeDirectories (Path.join parent directoryName)).2 })
    hr.makeDirectories hfree hcall
  -- The engine is live by then, and is closed again when its contents turn out unreadable.
  have hattached := attached_of_kept hkept hfree 0 OperationLog.noTerm
  have hcontents := hattached.contents_eq
  obtain ⟨hkept', hfree'⟩ := hattached.close
  unfold openBelow
  rw [Action.perform_bind_of_ok (perform_makeDirectory_of_ready hr),
    Action.perform_bind_of_ok hengine]
  refine ⟨_, ?_, hkept'.ready, hfree'⟩
  simp only at hcontents
  simp only [Action.perform, hcontents, hlog]
  rfl

/-- If the engine cannot be opened, or what it holds cannot be read, the directory is ready again
    afterwards. -/
theorem perform_openBelow_of_failure (hr : Ready (Path.join parent directoryName) loc h.disk c)
    (hfree : Free loc h.engines)
    (hfailure : f.fails (.openAt (Path.join parent directoryName)) = true ∨
      ∃ e, OperationLog.openOn f c = .error e) :
    ∃ e h', (openBelow f parent).perform h = (.error e, h') ∧
      Ready (Path.join parent directoryName) loc h'.disk c ∧ Free loc h'.engines := by
  cases hcall : f.fails (.openAt (Path.join parent directoryName)) with
  | true => exact ⟨_, perform_openBelow_of_fails hr hfree hcall⟩
  | false =>
    rcases hfailure with hfails | ⟨e, hlog⟩
    · rw [hcall] at hfails
      cases hfails
    · exact ⟨e, perform_openBelow_of_unreadable hr hfree hcall hlog⟩

/-! ## What was opened before -/

/-- Where a log was opened, the directory was ready for what was found in it. -/
theorem ready_of_perform_openBelow
    (hopen : (openBelow .none parent).perform h = (.ok handle, h')) :
    ∃ loc, Ready (Path.join parent directoryName) loc h.disk (h'.contents handle.engine) ∧
      Free loc h.engines := by
  unfold openBelow at hopen
  obtain ⟨u, h₁, hmake, hopen⟩ := Action.exists_of_perform_bind_eq_ok hopen
  obtain ⟨engine, h₂, hengine, hopen⟩ := Action.exists_of_perform_bind_eq_ok hopen
  rw [perform_makeDirectory, Prod.mk.injEq] at hmake
  obtain ⟨hmade, rfl⟩ := hmake
  unfold Host.openEngine at hengine
  obtain ⟨u', h₃, hcheck, hengine⟩ := Action.exists_of_perform_bind_eq_ok hengine
  cases hcheck
  obtain ⟨loc, h₄, hensure, hengine⟩ := Action.exists_of_perform_bind_eq_ok hengine
  obtain ⟨c, hready, hnode, hengines⟩ := ready_of_perform_ensureEngine hensure
  simp only [Action.perform] at hengine
  split at hengine
  · cases hengine
  · rename_i hlocked
    cases hengine
    have hfree : Free loc h₄.engines := isLocked_eq_false_iff.1 (by simpa using hlocked)
    have hcontents : Host.contents { h₄ with
        engines := ⟨h₄.nextEngine, loc, 1, 0⟩ :: h₄.engines, nextEngine := h₄.nextEngine + 1 }
        h₄.nextEngine = c := by
      simp [Host.contents, Host.engine?, contentsAt, hnode]
    simp only [Action.perform, hcontents] at hopen
    split at hopen
    · cases hopen
    · cases hopen
      rw [hcontents]
      rw [hengines] at hfree
      exact ⟨loc, hready.of_makeDirectories (eq_ok_of_mapError hmade), hfree⟩

/-- A log that was opened is attached to its engine, and remembers what the contents tell. -/
theorem attached_of_perform_openBelow
    (hopen : (openBelow .none parent).perform h = (.ok handle, h')) :
    ∃ loc c log, handle.directory = Path.join parent directoryName ∧ Attached handle loc h' c ∧
      OperationLog.openOn .none c = .ok log ∧ handle.length = log.length ∧
      handle.lastTerm = log.lastTerm := by
  obtain ⟨loc, hr, hfree⟩ := ready_of_perform_openBelow hopen
  cases hlog : OperationLog.openOn .none (h'.contents handle.engine) with
  | error e =>
    obtain ⟨e', h'', hfails, -, -⟩ := perform_openBelow_of_failure hr hfree (.inr ⟨e, hlog⟩)
    rw [hopen] at hfails
    cases hfails
  | ok log =>
    obtain ⟨handle', h'', hopen', hdirectory, hlength, hterm, hattached⟩ :=
      perform_openBelow_of_ready hr hfree rfl hlog
    rw [hopen, Prod.mk.injEq, Except.ok.injEq] at hopen'
    obtain ⟨rfl, rfl⟩ := hopen'
    exact ⟨loc, _, log, hdirectory, hattached, hlog, hlength, hterm⟩

end ReplicaStore.LogHandle
