import ReplicaStore.Proofs.Log.Journal
import ReplicaStore.Proofs.Log.Session

/-! # Sessions of a log whose engine fails

    The same steps as in a session without failures, but now any call to the engine may fail at any
    step: opening, looking up, writing, asking a cursor for its status, and reclaiming space. A
    journal follows the session and notes what was appended.

    * `Keeps`: the log that a session keeps, on the disk and, while it is open, for its handle.
    * `Keeps.advance`: what a step does to the log that is kept, and to its journal.
    * `consistent_run`: at every moment the engine is consistent with the journal.
    * `unchanged_of_error`: a step that fails has changed nothing, but for a collection of which
      only the compaction fails. -/

namespace ReplicaStore

/-! ## Collections -/

namespace OperationLog

open SlotKey

variable {log : OperationLog} {A : SlotList}

/-- What a collection below an index leaves: the records below its bound are gone, and nothing
    else is. -/
structure Collected (index : Int) (log log' : OperationLog) : Prop where
  length : log'.length = log.length
  term : log'.lastTerm = log.lastTerm
  /-- There are no records below the bound. -/
  gone : ∀ slot, slot < (log.collectBound index).toNat → log'.contents.get? (ofSlot slot) = none
  /-- Under every other key stands what stood there. -/
  others : ∀ key, (∀ slot, slot < (log.collectBound index).toNat → key ≠ ofSlot slot) →
    log'.contents.get? key = log.contents.get? key

theorem collected_self {index : Int} (h : log.collectBound index ≤ 0) :
    Collected index log log := by
  refine ⟨rfl, rfl, ?_, fun _ _ => rfl⟩
  intro slot hslot
  omega

/-- A collection removes exactly the records below its bound. -/
theorem Shows.collected (h : log.Shows A) (index : Int) :
    Collected index log (log.removeBefore .none index).2 := by
  have hbounded := lt_slotBound_of_le h.represents.bounded
  have hbelow : (log.collectBound index).toNat ≤ A.length := by
    unfold collectBound lastIndex
    rw [h.length]
    omega
  unfold OperationLog.removeBefore
  by_cases hbound : log.collectBound index ≤ 0
  · rw [if_pos hbound]
    exact collected_self hbound
  rw [if_neg hbound]
  have hkeys : ∀ k, k ∈ keysBelow log.contents (log.collectBound index).toNat ↔
      k ∈ (presentBelow A (log.collectBound index).toNat).map ofSlot :=
    fun k => h.represents.mem_keysBelow_iff (by omega)
  refine ⟨rfl, rfl, ?_, ?_⟩
  · intro slot hslot
    show (log.contents.applyBatch _).get? _ = none
    rw [Contents.get?_applyBatch_delete]
    split
    · rfl
    · -- A slot below the bound whose key was not found had no record.
      rename_i habsent
      cases hget : log.contents.get? (ofSlot slot) with
      | none => rfl
      | some record =>
        exfalso
        apply habsent
        have hbelowBound : slot < slotBound := by omega
        have hsome := h.represents.get?_isSome hbelowBound
        rw [hget] at hsome
        exact (hkeys _).2 (List.mem_map.2 ⟨slot, mem_presentBelow_iff.2 ⟨hslot, hsome.symm⟩, rfl⟩)
  · intro key hother
    show (log.contents.applyBatch _).get? _ = _
    rw [Contents.get?_applyBatch_delete, if_neg]
    intro hmem
    obtain ⟨slot, hpresent, hkey⟩ := List.mem_map.1 ((hkeys key).1 hmem)
    exact hother slot (mem_presentBelow_iff.1 hpresent).1 hkey.symm

/-- A log that shows a list is the log that its contents hold. -/
theorem Shows.openOn_eq (h : log.Shows A) : openOn .none log.contents = .ok log := by
  obtain ⟨log', hopen, hcontents, hshows⟩ := h.represents.openOn
  -- What contents represent tells both the length and the last term.
  have hsame : log' = log := by
    obtain ⟨contents, length, term⟩ := log
    obtain ⟨contents', length', term'⟩ := log'
    have hlength := hshows.length.trans h.length.symm
    have hterm := hshows.term.trans h.term.symm
    simp only at hcontents hlength hterm
    rw [hcontents, hlength, hterm]
  rw [hopen, hsame]

end OperationLog

namespace LogHandle

open Host OperationLog SlotList

/-! ## Steps -/

namespace Session

def run (parent : String) (s : Session) (events : List Event) : Session :=
  events.foldl (fun s event => (s.advance parent event).2) s

def note (s : Session) (j : Journal) : Event → Journal
  | .request f r =>
    match s.handle with
    | none => j
    | some handle => j.after handle.length (handle.ask f s.host r).1 r
  | _ => j

def journal (parent : String) (s : Session) (j : Journal) : List Event → Journal
  | [] => j
  | event :: events => journal parent (s.advance parent event).2 (s.note j event) events

/-- The log that is found when it is closed and opened again, with no call failing. -/
def reopened (parent : String) (s : Session) : Except Error OperationLog :=
  match (openBelow .none parent).perform s.closed with
  | (.ok handle, h) => .ok (handle.log h)
  | (.error e, _) => .error e

/-- Whether a session holds a log: who has it open sees it, and so does who opens it next, and its
    contents are what the disk has. -/
structure Holds (parent : String) (s : Session) (log : OperationLog) : Prop where
  reopened : s.reopened parent = .ok log
  shown : ∀ handle ∈ s.handle, handle.log s.host = log
  stored : Host.stored s.host (Path.join parent directoryName) = log.contents

/-! ## The log that is kept -/

/-- Whether a session keeps a log: while it is closed, in a directory that is ready for it, and
    while it is open, for its handle. -/
def Keeps (parent : String) (loc : Location) (s : Session) (log : OperationLog) : Prop :=
  match s.handle with
  | none => Ready (Path.join parent directoryName) loc s.host.disk log.contents ∧
      Free loc s.host.engines
  | some handle => handle.directory = Path.join parent directoryName ∧
      Offers handle loc s.host log

variable {parent : String} {loc : Location} {s : Session} {log : OperationLog} {j : Journal}

theorem keeps_closed {h : Host}
    (hready : Ready (Path.join parent directoryName) loc h.disk log.contents)
    (hfree : Free loc h.engines) : Keeps parent loc ⟨h, none⟩ log :=
  ⟨hready, hfree⟩

theorem keeps_open {handle : LogHandle} {h : Host}
    (hdirectory : handle.directory = Path.join parent directoryName)
    (hoffers : Offers handle loc h log) : Keeps parent loc ⟨h, some handle⟩ log :=
  ⟨hdirectory, hoffers⟩

/-- Once the log is closed, its directory is ready for what it held. -/
theorem Keeps.closed (hk : Keeps parent loc s log) :
    Ready (Path.join parent directoryName) loc s.closed.disk log.contents ∧
      Free loc s.closed.engines := by
  obtain ⟨h, handle?⟩ := s
  cases handle? with
  | none => exact hk
  | some handle =>
    obtain ⟨hdirectory, hoffers⟩ := hk
    obtain ⟨hkept, hfree⟩ := hoffers.attached.close
    rw [hdirectory] at hkept
    exact ⟨hkept.ready, hfree⟩

/-- Opening the log keeps it, whether it succeeds or fails. -/
theorem Keeps.openLog (hk : Keeps parent loc s log) (hlog : openOn .none log.contents = .ok log)
    (f : Fault) : Keeps parent loc (s.advance parent (.openLog f)).2 log := by
  obtain ⟨hready, hfree⟩ := hk.closed
  -- A failure, be it of the engine or of the contents, leaves the directory ready and nothing open.
  have hfailure (hfails : f.fails (.openAt (Path.join parent directoryName)) = true ∨
      ∃ e, openOn f log.contents = .error e) :
      Keeps parent loc (s.advance parent (.openLog f)).2 log := by
    obtain ⟨e, h', hopen, hready', hfree'⟩ := perform_openBelow_of_failure hready hfree hfails
    have hstep : (s.advance parent (.openLog f)).2 = ⟨h', none⟩ := by
      simp only [advance, hopen]
      rfl
    rw [hstep]
    exact keeps_closed hready' hfree'
  cases hcall : f.fails (.openAt (Path.join parent directoryName)) with
  | true => exact hfailure (.inl hcall)
  | false =>
    cases hopenOn : openOn f log.contents with
    | error e => exact hfailure (.inr ⟨e, hopenOn⟩)
    | ok log' =>
      -- What is opened under the fault is what is opened without it.
      have hsame := openOn_of_ok hopenOn
      rw [hlog, Except.ok.injEq] at hsame
      subst hsame
      obtain ⟨handle, h', hopen, hdirectory, hlength, hterm, hattached⟩ :=
        perform_openBelow_of_ready hready hfree hcall hopenOn
      have hstep : (s.advance parent (.openLog f)).2 = ⟨h', some handle⟩ := by
        simp only [advance, hopen]
        rfl
      rw [hstep]
      exact keeps_open hdirectory (hattached.offers hlength hterm)

/-- The log that is kept after a step. -/
def after (s : Session) (log : OperationLog) : Event → OperationLog
  | .request f r => if s.handle.isSome then (log.ask f r).2 else log
  | _ => log

/-- A request to an open log, and a request to a closed one. -/
theorem Keeps.request (hk : Keeps parent loc s log) (f : Fault) (r : Request) :
    (s.handle = none ∧ s.advance parent (.request f r) = (none, s)) ∨
      ∃ handle h' handle', s.handle = some handle ∧ handle.log s.host = log ∧
        handle.ask f s.host r = ((log.ask f r).1, handle', h') ∧
        s.advance parent (.request f r) = (some (log.ask f r).1, ⟨h', some handle'⟩) ∧
        Keeps parent loc ⟨h', some handle'⟩ (log.ask f r).2 := by
  obtain ⟨h, handle?⟩ := s
  cases handle? with
  | none => exact .inl ⟨rfl, rfl⟩
  | some handle =>
    obtain ⟨hdirectory, hoffers⟩ := hk
    obtain ⟨handle', h', hask, hsame, hoffers'⟩ := hoffers.ask f r
    refine .inr ⟨handle, h', handle', rfl, hoffers.log_eq, hask, ?_,
      keeps_open (hsame.trans hdirectory) hoffers'⟩
    simp only [advance, hask]

/-- A step keeps the log that the step leaves. -/
theorem Keeps.step (hk : Keeps parent loc s log) (hlog : openOn .none log.contents = .ok log)
    (event : Event) : Keeps parent loc (s.advance parent event).2 (s.after log event) := by
  cases event with
  | openLog f => exact hk.openLog hlog f
  | close => exact keeps_closed hk.closed.1 hk.closed.2
  | request f r =>
    -- A closed log is left alone.
    rcases hk.request f r with ⟨hclosed, hstep⟩ | ⟨handle, h', handle', hopen, -, -, hstep, hk'⟩
    · rw [hstep]
      simp only [after, hclosed]
      exact hk
    · rw [hstep]
      simp only [after, hopen]
      exact hk'

/-- A step keeps the log that the step leaves, and its journal with it. -/
theorem Keeps.advance (hk : Keeps parent loc s log) (htracks : Tracks log j) (event : Event) :
    Keeps parent loc (s.advance parent event).2 (s.after log event) ∧
      Tracks (s.after log event) (s.note j event) := by
  have hkept := htracks
  obtain ⟨A, hshows, -⟩ := htracks
  refine ⟨hk.step hshows.openOn_eq event, ?_⟩
  cases event with
  | openLog f => exact hkept
  | close => exact hkept
  | request f r =>
    rcases hk.request f r with ⟨hclosed, -⟩ | ⟨handle, h', handle', hopen, hlog, hask, -, -⟩
    · simp only [after, note, hclosed]
      exact hkept
    · -- The journal goes by the length that the handle remembers, which is that of the log.
      have hlength : handle.length = log.length := by
        rw [← hlog]
        rfl
      simp only [after, note, hopen, hask, hlength]
      exact hkept.ask f r

/-- Whatever is done to a log, it is kept, and its journal with it. -/
theorem Keeps.run (hk : Keeps parent loc s log) (htracks : Tracks log j) (events : List Event) :
    ∃ log', Keeps parent loc (s.run parent events) log' ∧
      Tracks log' (s.journal parent j events) := by
  -- By induction on the run; that the log is kept together with its journal is the invariant.
  induction events generalizing s log j with
  | nil => exact ⟨log, hk, htracks⟩
  | cons event events ih =>
    obtain ⟨hk', htracks'⟩ := hk.advance htracks event
    exact ih hk' htracks'

/-- What is kept on the disk. -/
theorem Keeps.stored (hk : Keeps parent loc s log) :
    Host.stored s.host (Path.join parent directoryName) = log.contents := by
  obtain ⟨h, handle?⟩ := s
  cases handle? with
  | none => exact hk.1.stored_eq
  | some handle =>
    obtain ⟨hdirectory, hoffers⟩ := hk
    rw [← hdirectory]
    exact hoffers.attached.kept.ready.stored_eq

theorem Keeps.shown (hk : Keeps parent loc s log) :
    ∀ handle ∈ s.handle, handle.log s.host = log := by
  intro handle hhandle
  obtain ⟨h, handle?⟩ := s
  have hopen : handle? = some handle := hhandle
  subst hopen
  exact hk.2.log_eq

/-- A log that is kept and can be opened is the one that a session holds. -/
theorem Keeps.holds_of_openOn (hk : Keeps parent loc s log)
    (hlog : openOn .none log.contents = .ok log) : Holds parent s log := by
  obtain ⟨hready, hfree⟩ := hk.closed
  obtain ⟨handle, h', hopen, -, hlength, hterm, hattached⟩ :=
    perform_openBelow_of_ready hready hfree rfl hlog
  refine ⟨?_, hk.shown, hk.stored⟩
  unfold Session.reopened
  rw [hopen]
  simp only [(hattached.offers hlength hterm).log_eq]

theorem Keeps.holds (hk : Keeps parent loc s log) (htracks : Tracks log j) :
    Holds parent s log := by
  obtain ⟨A, hshows, -⟩ := htracks
  exact hk.holds_of_openOn hshows.openOn_eq

/-- A session holds one log only. -/
theorem Holds.unique {log' : OperationLog} (h : Holds parent s log) (h' : Holds parent s log') :
    log = log' :=
  Except.ok.inj (h.reopened.symm.trans h'.reopened)

/-! ## Runs -/

/-- A log that can be opened, and is empty then, is kept as an empty one. -/
theorem keeps_of_opened {h h' : Host} {handle : LogHandle}
    (hopen : (openBelow .none parent).perform h = (.ok handle, h'))
    (hempty : h'.contents handle.engine = Contents.empty) :
    ∃ loc log, Keeps parent loc ⟨h, none⟩ log ∧ Tracks log .blank := by
  obtain ⟨loc, hready, hfree⟩ := ready_of_perform_openBelow hopen
  rw [hempty] at hready
  -- Empty contents represent the list without slots, to which nothing was appended.
  have hshows : Shows ⟨Contents.empty, 0, noTerm⟩ [] := ⟨represents_empty, rfl, rfl⟩
  have hcovers : Covers .blank [] := by
    intro slot e hslot
    cases hslot
  exact ⟨loc, _, keeps_closed hready hfree, [], hshows, represents_empty, hcovers, fun _ => rfl⟩

/-- Whatever is done to a log that was empty at first, and whichever calls fail, its engine is
    consistent with what was appended, and so is the log while it is open. -/
theorem consistent_run {parent : String} {h h' : Host} {handle : LogHandle}
    (hopen : (openBelow .none parent).perform h = (.ok handle, h'))
    (hempty : h'.contents handle.engine = Contents.empty) (events : List Event) :
    let s := Session.run parent ⟨h, none⟩ events
    let j := Session.journal parent ⟨h, none⟩ .blank events
    (∃ length, Consistent (stored s.host (Path.join parent directoryName)) length j) ∧
      ∀ handle ∈ s.handle, ConsistentLog (handle.log s.host) j ∧
        s.host.contents handle.engine = stored s.host (Path.join parent directoryName) := by
  intro s j
  -- What is kept at the end is consistent, and it is what the disk stores and what the handle
  -- shows.
  obtain ⟨loc, log, hk, htracks⟩ := keeps_of_opened hopen hempty
  obtain ⟨log', hk', htracks'⟩ := hk.run htracks events
  have hconsistent := htracks'.consistent
  refine ⟨⟨log'.length, ?_⟩, ?_⟩
  · rw [hk'.stored]
    exact hconsistent.toConsistent
  · intro handle hhandle
    have hlog := hk'.shown handle hhandle
    have hcontents : s.host.contents handle.engine = log'.contents :=
      congrArg OperationLog.contents hlog
    rw [hlog, hk'.stored]
    exact ⟨hconsistent, hcontents⟩

/-- On an empty disk, after a batch that cannot be written, one that can, a collection that cannot
    reclaim the space, and an attempt to open the log that fails: the log is closed then, and what
    is left of it is consistent with what was appended. -/
theorem consistent_run_of_empty_disk :
    let h := Host.ofDisk (Disk.empty ["data"])
    let opened := (openBelow .none "/data").perform h
    let handle : LogHandle := ⟨"/data/#binlog", 0, 0, noTerm⟩
    let entries : List Entry := [.noOp 1, .put "u" "k" "v" 2]
    let events : List Event := [.openLog .none, .request ⟨fun _ => true⟩ (.appendBatch entries),
      .request .none (.appendBatch entries), .request ⟨(· = .compact)⟩ (.removeBefore 1),
      .openLog ⟨(· = .get SlotKey.lengthKey)⟩]
    opened.1 = .ok handle ∧ opened.2.contents handle.engine = Contents.empty ∧
      (Session.run "/data" ⟨h, none⟩ events).handle = none ∧
      ∃ length, Consistent
        (stored (Session.run "/data" ⟨h, none⟩ events).host (Path.join "/data" directoryName))
        length (Session.journal "/data" ⟨h, none⟩ .blank events) := by
  intro h opened handle entries events
  have hopen : opened = (.ok handle, opened.2) := rfl
  have hempty : opened.2.contents handle.engine = Contents.empty := rfl
  have hclosed : (Session.run "/data" ⟨h, none⟩ events).handle = none := by decide +kernel
  exact ⟨congrArg Prod.fst hopen, hempty, hclosed, (consistent_run hopen hempty events).1⟩

/-- A step of a log that fails has changed nothing, be it for the open handle, on the disk, or for
    who opens the log next. One step is an exception: a collection of which only the compaction
    fails has removed what it was asked to remove, and changed nothing else. -/
theorem unchanged_of_error {parent : String} {h h' : Host} {handle : LogHandle}
    (hopen : (openBelow .none parent).perform h = (.ok handle, h'))
    (hempty : h'.contents handle.engine = Contents.empty) (events : List Event) (event : Event)
    {e : Error} :
    let s := Session.run parent ⟨h, none⟩ events
    let s' := (s.advance parent event).2
    (s.advance parent event).1 = some (.error e) →
    ∃ log log', s.Holds parent log ∧ s'.Holds parent log' ∧
      (∀ f r, event = .request f r → s.handle.isSome ∧ s'.handle.isSome) ∧
      (∀ f index, event = .request f (.removeBefore index) →
        OnlyCompactionFails f log index.toInt → Collected index.toInt log log') ∧
      ((∀ f index, event = .request f (.removeBefore index) →
        ¬ OnlyCompactionFails f log index.toInt) → log' = log) := by
  intro s s' herror
  obtain ⟨loc, log₀, hk₀, htracks₀⟩ := keeps_of_opened hopen hempty
  -- Before the step and after it, there is a log that is kept and that tracks the journal; what is
  -- left is whether they are the same.
  obtain ⟨log, hk, htracks⟩ := hk₀.run htracks₀ events
  obtain ⟨hk', htracks'⟩ := hk.advance htracks event
  refine ⟨log, s.after log event, hk.holds htracks, hk'.holds htracks', ?_⟩
  cases event with
  | openLog f => exact ⟨nofun, nofun, fun _ => rfl⟩
  | close => exact ⟨nofun, nofun, fun _ => rfl⟩
  | request f r =>
    rcases hk.request f r with
      ⟨hclosed, hstep⟩ | ⟨handle, host', handle', hsome, hlog, hask, hstep, -⟩
    · -- A log that is closed is asked for nothing, so it does not refuse anything either.
      have hanswer : (s.advance parent (.request f r)).1 = none := congrArg Prod.fst hstep
      rw [herror] at hanswer
      cases hanswer
    · have hs' : s'.handle = some handle' := congrArg (fun t => t.2.handle) hstep
      have hafter : s.after log (.request f r) = (log.ask f r).2 := if_pos (by rw [hsome]; rfl)
      have hrefused : (log.ask f r).1 = .error e := by
        have hanswer : (s.advance parent (.request f r)).1 = some (log.ask f r).1 :=
          congrArg Prod.fst hstep
        rw [herror, Option.some.injEq] at hanswer
        exact hanswer.symm
      rw [hafter]
      refine ⟨?_, ?_, ?_⟩
      · intro _ _ _
        rw [hsome, hs']
        exact ⟨rfl, rfl⟩
      · intro f' index hevent honly
        obtain ⟨A, hshows, -⟩ := htracks
        cases hevent
        rw [ask_of_onlyCompactionFails honly]
        exact hshows.collected index.toInt
      · intro hcompaction
        apply ask_of_error hrefused
        intro index hr
        subst hr
        exact hcompaction f index rfl

/-- On an empty disk, a collection that cannot reclaim the space: the record is gone, and the log is
    otherwise as it was. -/
theorem collected_of_error_on_empty_disk :
    let h := Host.ofDisk (Disk.empty ["data"])
    let opened := (openBelow .none "/data").perform h
    let handle : LogHandle := ⟨"/data/#binlog", 0, 0, noTerm⟩
    let s := Session.run "/data" ⟨h, none⟩
      [.openLog .none, .request .none (.appendBatch [.noOp 1, .put "u" "k" "v" 2])]
    let step := s.advance "/data" (.request ⟨(· = .compact)⟩ (.removeBefore 1))
    opened.1 = .ok handle ∧ opened.2.contents handle.engine = Contents.empty ∧
      step.1 = some (.error (.engine Call.compact.failure)) ∧
      ∃ log log', s.Holds "/data" log ∧ step.2.Holds "/data" log' ∧ Collected 1 log log' := by
  intro h opened handle s step
  have hopen : opened = (.ok handle, opened.2) := rfl
  have hempty : opened.2.contents handle.engine = Contents.empty := rfl
  have herror : step.1 = some (.error (.engine Call.compact.failure)) := rfl
  obtain ⟨log, log', hholds, hholds', -, hcollected, -⟩ :=
    unchanged_of_error hopen hempty _ _ herror
  -- The session holds one log only, the one that its handle shows.
  have hlog : log = ((⟨"/data/#binlog", 0, 2, 2⟩ : LogHandle).log s.host) :=
    (hholds.shown ⟨"/data/#binlog", 0, 2, 2⟩ rfl).symm
  have honly : OnlyCompactionFails ⟨(· = .compact)⟩ log 1 := by
    rw [hlog]
    exact ⟨by decide, rfl, rfl, rfl⟩
  exact ⟨congrArg Prod.fst hopen, hempty, herror, log, log', hholds, hholds',
    hcollected _ 1 rfl honly⟩

end Session

end LogHandle

end ReplicaStore
