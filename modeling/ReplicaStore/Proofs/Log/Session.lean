import ReplicaStore.Proofs.Log.Requests

/-! # Sessions of an operation log

    What can happen to the log of one directory in the course of time: it is opened and closed, and
    asked, as often and in whatever order, to append, to read, to cut and to collect. A session
    takes these steps on a host, through the definitions that run, and any call to the engine may
    fail on the way. Where none does, an ideal session takes them on a list of slots.

    * `Serves`: an open log serves a list of slots.
    * `Serves.ask`: a request is answered as the list answers it, and leaves the log serving the
      list after it.
    * `step_refines`: so is every step, closing and opening again included.
    * `trace_of_opened`: no observer of a run can tell the log from the list. -/

namespace ReplicaStore.LogHandle

open Host OperationLog SlotList

/-! ## Serving a list -/

/-- Whether an open log serves a list of slots: it is attached to its engine, and shows the list. -/
structure Serves (handle : LogHandle) (loc : Location) (h : Host) (A : SlotList) : Prop where
  attached : Attached handle loc h (handle.log h).contents
  shows : (handle.log h).Shows A

variable {handle : LogHandle} {loc : Location} {h : Host} {A : SlotList} {log : OperationLog}

theorem Offers.serves (ho : Offers handle loc h log) (hlog : log.Shows A) :
    Serves handle loc h A := by
  have hsame := ho.log_eq
  subst hsame
  exact ⟨ho.attached, hlog⟩

/-- A request is answered as the list answers it, and the log after it serves the list after it. -/
theorem Serves.ask (hs : Serves handle loc h A) {r : Request} (hfits : r.Fits A) :
    ∃ handle' h', handle.ask .none h r = ((A.ask r).1, handle', h') ∧
      handle'.directory = handle.directory ∧ Serves handle' loc h' (A.ask r).2 := by
  have hoffers : Offers handle loc h (handle.log h) := ⟨hs.attached, rfl⟩
  obtain ⟨hanswer, hshows⟩ := hs.shows.ask_none hfits
  obtain ⟨handle', h', hask, hdirectory, hoffers'⟩ := hoffers.ask .none r
  rw [hask, hanswer]
  exact ⟨handle', h', rfl, hdirectory, hoffers'.serves hshows⟩

/-! ## Sessions -/

/-- What can happen to a log whose engine may fail. -/
inductive Event where
  /-- It is opened; a log that is open is closed first. -/
  | openLog (f : Fault)
  | close
  | request (f : Fault) (r : Request)

/-- What can happen to a log whose engine does not fail. -/
inductive Label where
  | openLog
  | close
  | request (r : Request)

/-- The event in which no call fails. -/
def Label.event : Label → Event
  | .openLog => .openLog .none
  | .close => .close
  | .request r => .request .none r

abbrev Answer := Option (Except Error Reply)

/-- A host, and the log's handle while it is open. -/
structure Session where
  host : Host
  handle : Option LogHandle

/-- A list of slots, and whether the log is open. -/
structure Ideal where
  slots : SlotList
  isOpen : Bool

namespace Session

/-- The host after an open log is closed. -/
def closed (s : Session) : Host :=
  match s.handle with
  | some handle => handle.close s.host
  | none => s.host

/-- A step under its fault: its answer, and the session after it. -/
def advance (parent : String) (s : Session) : Event → Answer × Session
  | .openLog f =>
    let (r, h) := (openBelow f parent).perform s.closed
    (some (r.map fun _ => .done), ⟨h, r.toOption⟩)
  | .close => (none, ⟨s.closed, none⟩)
  | .request f r =>
    match s.handle with
    | none => (none, s)
    | some handle =>
      let (answer, handle, h) := handle.ask f s.host r
      (some answer, ⟨h, some handle⟩)

/-- A step in which no call fails. -/
def step (parent : String) (s : Session) (label : Label) : Answer × Session :=
  s.advance parent label.event

/-- The length and the last term that an open log remembers. -/
def shown (s : Session) : Option (Nat × Int64) :=
  s.handle.map fun handle => (handle.length, handle.lastTerm)

/-- What an observer sees of a run: the answer to every step, and what the log remembers after
    it. -/
def trace (parent : String) (s : Session) : List Label → List (Answer × Option (Nat × Int64))
  | [] => []
  | label :: labels =>
    let (answer, s') := s.step parent label
    (answer, s'.shown) :: trace parent s' labels

end Session

namespace Ideal

def step (i : Ideal) : Label → Answer × Ideal
  | .openLog => (some (.ok .done), ⟨i.slots, true⟩)
  | .close => (none, ⟨i.slots, false⟩)
  | .request r =>
    if i.isOpen then
      let (answer, slots) := i.slots.ask r
      (some answer, ⟨slots, true⟩)
    else (none, i)

def shown (i : Ideal) : Option (Nat × Int64) :=
  if i.isOpen then some (i.slots.length, i.slots.lastTerm) else none

def trace (i : Ideal) : List Label → List (Answer × Option (Nat × Int64))
  | [] => []
  | label :: labels =>
    let (answer, i') := i.step label
    (answer, i'.shown) :: trace i' labels

def run (i : Ideal) (labels : List Label) : Ideal :=
  labels.foldl (fun i label => (i.step label).2) i

/-- Whether a log can carry a step out. -/
def Allows (i : Ideal) : Label → Prop
  | .request r => i.isOpen = true → r.Fits i.slots
  | _ => True

/-- Whether a log can carry out whatever it is asked for in a run. -/
def Admits (i : Ideal) : List Label → Prop
  | [] => True
  | label :: labels => i.Allows label ∧ Admits (i.step label).2 labels

instance (i : Ideal) : (label : Label) → Decidable (i.Allows label)
  | .openLog => .isTrue trivial
  | .close => .isTrue trivial
  | .request r => inferInstanceAs (Decidable (i.isOpen = true → r.Fits i.slots))

instance decidableAdmits : (i : Ideal) → (labels : List Label) → Decidable (i.Admits labels)
  | _, [] => .isTrue trivial
  | i, label :: labels =>
    have := decidableAdmits (i.step label).2 labels
    inferInstanceAs (Decidable (i.Allows label ∧ Admits (i.step label).2 labels))

/-- Of the steps of an ideal session, only requests are refused. -/
theorem kind_of_step {i : Ideal} {label : Label} {e : Error}
    (h : (i.step label).1 = some (.error e)) :
    e.kind = .invalidArgument ∨ e.kind = .dataLoss ∧ ∃ slot, e = .missingSlot slot := by
  cases label with
  | openLog => cases h
  | close => cases h
  | request r =>
    simp only [step] at h
    split at h
    · obtain hkind | ⟨hkind, slot, heq, -⟩ := kind_of_ask (Option.some.inj h)
      · exact .inl hkind
      · exact .inr ⟨hkind, slot, heq⟩
    · cases h

/-- What a run refuses, it refuses as a bad argument, but for cuts to a slot whose entry is gone,
    which are loss of data. -/
theorem kind_of_mem_trace {i : Ideal} {labels : List Label} {e : Error}
    {shown : Option (Nat × Int64)} (h : (some (.error e), shown) ∈ i.trace labels) :
    e.kind = .invalidArgument ∨ e.kind = .dataLoss ∧ ∃ slot, e = .missingSlot slot := by
  induction labels generalizing i with
  | nil => cases h
  | cons label labels ih =>
    obtain heq | hrest := List.mem_cons.1 h
    · exact kind_of_step (congrArg Prod.fst heq).symm
    · exact ih hrest

end Ideal

/-- Whether a session does what an ideal one does. -/
def Session.Refines (parent : String) (loc : Location) (s : Session) (i : Ideal) : Prop :=
  match s.handle with
  | none => i.isOpen = false ∧ ∃ c, Kept (Path.join parent directoryName) loc s.host.disk c ∧
      Free loc s.host.engines ∧ Represents c i.slots
  | some handle => i.isOpen = true ∧ handle.directory = Path.join parent directoryName ∧
      Serves handle loc s.host i.slots

namespace Session

variable {parent : String} {s : Session} {i : Ideal}

theorem Refines.shown_eq (hs : s.Refines parent loc i) : s.shown = i.shown := by
  unfold Refines at hs
  unfold shown Ideal.shown
  split at hs
  · rename_i hhandle
    rw [hhandle, hs.1]
    rfl
  · rename_i handle hhandle
    obtain ⟨hopen, -, hserves⟩ := hs
    have hlength : handle.length = i.slots.length := hserves.shows.length
    have hterm : handle.lastTerm = i.slots.lastTerm := hserves.shows.term
    rw [hhandle, hopen, ← hlength, ← hterm]
    rfl

/-- The list ends in an entry at every moment. -/
theorem Refines.endsInEntry (hs : s.Refines parent loc i) : i.slots.EndsInEntry := by
  unfold Refines at hs
  split at hs
  · obtain ⟨-, c, -, -, hrep⟩ := hs
    exact hrep.ends
  · exact hs.2.2.shows.represents.ends

/-- Once the log is closed, its engine file keeps the list, and is free. -/
theorem Refines.closed (hs : s.Refines parent loc i) :
    ∃ c, Kept (Path.join parent directoryName) loc s.closed.disk c ∧ Free loc s.closed.engines ∧
      Represents c i.slots := by
  unfold Refines at hs
  split at hs
  · rename_i hhandle
    have hclosed : s.closed = s.host := by
      simp only [Session.closed, hhandle]
    rw [hclosed]
    exact hs.2
  · rename_i handle hhandle
    have hclosed : s.closed = handle.close s.host := by
      simp only [Session.closed, hhandle]
    obtain ⟨-, hdirectory, hserves⟩ := hs
    obtain ⟨hkept, hfree⟩ := hserves.attached.close
    rw [hdirectory] at hkept
    rw [hclosed]
    exact ⟨_, hkept, hfree, hserves.shows.represents⟩

/-- A step answers what the ideal step answers, and leaves a session that does what the ideal one
    does. -/
theorem step_refines (hs : s.Refines parent loc i) {label : Label} (hallows : i.Allows label) :
    (s.step parent label).1 = (i.step label).1 ∧
      (s.step parent label).2.Refines parent loc (i.step label).2 := by
  cases label with
  -- A log that is open is closed first, so the engine file is free in either case.
  | openLog =>
    obtain ⟨c, hkept, hfree, hrep⟩ := hs.closed
    obtain ⟨log, hlog, hcontents, hshows⟩ := hrep.openOn
    obtain ⟨handle, h', hopen, hdirectory, hlength, hterm, hattached⟩ :=
      perform_openBelow_of_ready hkept.ready hfree rfl hlog
    have hstep : s.step parent .openLog = (some (.ok .done), ⟨h', some handle⟩) := by
      simp only [step, Label.event, advance, hopen]
      rfl
    rw [← hcontents] at hattached
    rw [hstep]
    exact ⟨rfl, rfl, hdirectory, (hattached.offers hlength hterm).serves hshows⟩
  | close => exact ⟨rfl, rfl, hs.closed⟩
  | request r =>
    cases hhandle : s.handle with
    | none =>
      -- A log that is not open answers nothing, and neither does the ideal one.
      have hi := hs
      simp only [Refines, hhandle] at hi
      have hstep : s.step parent (.request r) = (none, s) := by
        simp only [step, Label.event, advance, hhandle]
      have histep : i.step (.request r) = (none, i) := by
        simp only [Ideal.step, hi.1, Bool.false_eq_true, if_false]
      rw [hstep, histep]
      exact ⟨rfl, hs⟩
    | some handle =>
      simp only [Refines, hhandle] at hs
      obtain ⟨hopen, hdirectory, hserves⟩ := hs
      obtain ⟨handle', h', hask, hsame, hserves'⟩ := hserves.ask (hallows hopen)
      have hstep : s.step parent (.request r) =
          (some (i.slots.ask r).1, ⟨h', some handle'⟩) := by
        simp only [step, Label.event, advance, hhandle, hask]
      have histep : i.step (.request r) =
          (some (i.slots.ask r).1, ⟨(i.slots.ask r).2, true⟩) := by
        simp only [Ideal.step, hopen, if_true]
      rw [hstep, histep]
      exact ⟨rfl, rfl, hsame.trans hdirectory, hserves'⟩

/-- An observer cannot tell a session from the ideal one. -/
theorem trace_eq {labels : List Label} (hs : s.Refines parent loc i) (hadmits : i.Admits labels) :
    s.trace parent labels = i.trace labels := by
  -- By induction on the run; that the session refines the ideal one is the invariant.
  induction labels generalizing s i with
  | nil => rfl
  | cons label labels ih =>
    obtain ⟨hallows, hrest⟩ := hadmits
    obtain ⟨hanswer, hs'⟩ := step_refines hs hallows
    show ((s.step parent label).1, (s.step parent label).2.shown) ::
        (s.step parent label).2.trace parent labels = _
    rw [hanswer, hs'.shown_eq, ih hs' hrest]
    rfl

/-- The list of an ideal session that a session can follow ends in an entry. -/
theorem endsInEntry_run {labels : List Label} (hs : s.Refines parent loc i)
    (hadmits : i.Admits labels) : (i.run labels).slots.EndsInEntry := by
  induction labels generalizing s i with
  | nil => exact hs.endsInEntry
  | cons label labels ih =>
    obtain ⟨hallows, hrest⟩ := hadmits
    exact ih (step_refines hs hallows).2 hrest

/-- A log that is opened and found empty serves the empty list. -/
theorem refines_of_opened {h h' : Host} {handle : LogHandle}
    (hopen : (openBelow .none parent).perform h = (.ok handle, h'))
    (hempty : h'.contents handle.engine = Contents.empty) :
    ∃ loc, Refines parent loc ⟨h', some handle⟩ ⟨[], true⟩ := by
  obtain ⟨loc, c, log, hdirectory, hattached, hlog, hlength, hterm⟩ :=
    attached_of_perform_openBelow hopen
  have hc : c = Contents.empty := by
    rw [← hattached.contents_eq]
    exact hempty
  subst hc
  -- Contents without a length record are opened as the empty log.
  have hlog' : log = ⟨Contents.empty, 0, noTerm⟩ := by
    rw [openOn_of_none rfl, Except.ok.injEq] at hlog
    exact hlog.symm
  subst hlog'
  refine ⟨loc, rfl, hdirectory, ?_, ?_, hlength, hterm⟩
  · show Attached handle loc h' (h'.contents handle.engine)
    rw [hempty]
    exact hattached
  · show Represents (h'.contents handle.engine) []
    rw [hempty]
    exact represents_empty

/-- A log that was opened and found empty behaves, whatever is done to it, as a list of slots that
    is empty at first, and whose last slot has its entry at every moment. What is refused is a bad
    argument, or a cut to a slot whose entry is gone. -/
theorem trace_of_opened {parent : String} {h h' : Host} {handle : LogHandle}
    (hopen : (openBelow .none parent).perform h = (.ok handle, h'))
    (hempty : h'.contents handle.engine = Contents.empty) {labels : List Label}
    (hadmits : Ideal.Admits ⟨[], true⟩ labels) :
    Session.trace parent ⟨h', some handle⟩ labels = Ideal.trace ⟨[], true⟩ labels ∧
      (Ideal.run ⟨[], true⟩ labels).slots.EndsInEntry ∧
      ∀ e shown, (some (.error e), shown) ∈ Session.trace parent ⟨h', some handle⟩ labels →
        e.kind = .invalidArgument ∨ e.kind = .dataLoss ∧ ∃ slot, e = .missingSlot slot := by
  obtain ⟨loc, hrefines⟩ := refines_of_opened hopen hempty
  have htrace := trace_eq hrefines hadmits
  refine ⟨htrace, endsInEntry_run hrefines hadmits, ?_⟩
  intro e shown hmem
  rw [htrace] at hmem
  exact Ideal.kind_of_mem_trace hmem

/-- Entries collected, and the log opened again, on an empty disk: a cut back to the slot that is
    gone is refused. -/
theorem trace_of_empty_disk :
    let opened := (openBelow .none "/data").perform (Host.ofDisk (Disk.empty ["data"]))
    let handle : LogHandle := ⟨"/data/#binlog", 0, 0, noTerm⟩
    let labels : List Label := [.request (.appendBatch [.noOp 1, .put "u" "k" "v" 2]),
      .request (.removeSlot 0), .close, .openLog, .request (.truncate 0)]
    opened.1 = .ok handle ∧ opened.2.contents handle.engine = Contents.empty ∧
      Ideal.Admits ⟨[], true⟩ labels ∧
      Session.trace "/data" ⟨opened.2, some handle⟩ labels =
        [(some (.ok .done), some (2, 2)), (some (.ok (.found true)), some (2, 2)), (none, none),
          (some (.ok .done), some (2, 2)), (some (.error (.missingSlot 0)), some (2, 2))] := by
  intro opened handle labels
  have hopen : opened = (.ok handle, opened.2) := rfl
  have hempty : opened.2.contents handle.engine = Contents.empty := rfl
  have hadmits : Ideal.Admits ⟨[], true⟩ labels := by decide
  refine ⟨congrArg Prod.fst hopen, hempty, hadmits, ?_⟩
  exact (trace_of_opened hopen hempty hadmits).1

end Session

end ReplicaStore.LogHandle
