import ReplicaStore.Proofs.Log.Faults
import ReplicaStore.Proofs.Log.OnHost

/-! # Requests to an open log

    A handle and the host that it lives on stand for a log. Whatever is asked of the handle, it
    answers what the log answers, and stands for the log after the request.

    * `Offers`: the log that a handle stands for.
    * `Offers.ask`: a request to the handle is a request to the log. -/

namespace ReplicaStore

open SlotList

namespace OperationLog

variable {f : Fault} {log log' : OperationLog}

/-- Removing the record of a slot leaves the length and the last term. -/
theorem remembered_of_removeSlot {index : Int} {found : Bool}
    (h : log.removeSlot f index = .ok (found, log')) :
    log'.length = log.length ∧ log'.lastTerm = log.lastTerm := by
  obtain ⟨-, -, ⟨-, -, rfl⟩ | ⟨record, -, -, rfl⟩⟩ := removeSlot_cases h
  · exact ⟨rfl, rfl⟩
  · exact ⟨rfl, rfl⟩

/-- So does a collection, whatever fails. -/
theorem remembered_removeBefore (f : Fault) (log : OperationLog) (index : Int) :
    (log.removeBefore f index).2.length = log.length ∧
      (log.removeBefore f index).2.lastTerm = log.lastTerm := by
  rcases removeBefore_cases f log index with hsame | hremoved
  · rw [hsame]
    exact ⟨rfl, rfl⟩
  · rw [hremoved]
    exact ⟨rfl, rfl⟩

end OperationLog

namespace LogHandle

/-- The handle after an operation that gives the log after it, or as it was. -/
def changed (handle : LogHandle) :
    Except Error LogHandle × Host → Except Error Reply × LogHandle × Host
  | (.ok handle', h) => (.ok .done, handle', h)
  | (.error e, h) => (.error e, handle, h)

/-- The answer to a request under a fault, and the handle and the host after it. -/
def ask (f : Fault) (handle : LogHandle) (h : Host) :
    Request → Except Error Reply × LogHandle × Host
  | .append e => handle.changed ((handle.change fun log => log.append f e).perform h)
  | .appendBatch entries => handle.changed ((handle.appendBatch f entries).perform h)
  | .readSlot index => ((handle.readSlot f index.toInt h).map .entry, handle, h)
  | .truncate index => handle.changed ((handle.truncate f index.toInt).perform h)
  | .removeSlot index =>
    let (r, h) := (handle.removeSlot f index.toInt).perform h
    (r.map .found, handle, h)
  | .removeBefore index =>
    let (r, h) := (handle.removeBefore f index.toInt).perform h
    (r.map .removed, handle, h)

/-- Whether a handle stands for a log: it is attached to an engine that holds the log's contents,
    and remembers the rest. -/
structure Offers (handle : LogHandle) (loc : Location) (h : Host) (log : OperationLog) : Prop where
  attached : Attached handle loc h log.contents
  log_eq : handle.log h = log

variable {f : Fault} {handle : LogHandle} {loc : Location} {h : Host} {log log' : OperationLog}

/-- A handle that is attached to a log's contents and remembers the rest stands for the log. -/
theorem Attached.offers (ha : Attached handle loc h log.contents)
    (hlength : handle.length = log.length) (hterm : handle.lastTerm = log.lastTerm) :
    Offers handle loc h log := by
  refine ⟨ha, ?_⟩
  unfold LogHandle.log
  rw [ha.contents_eq, hlength, hterm]

/-- The handle after an operation stands for the log after it. -/
theorem Offers.update (ho : Offers handle loc h log) (log' : OperationLog) :
    Offers (handle.update h log').1 loc (handle.update h log').2 log' := by
  have hset := ho.attached.setContents log'.contents
  have hattached : Attached (handle.update h log').1 loc (handle.update h log').2 log'.contents :=
    ⟨hset.kept, hset.live⟩
  exact hattached.offers rfl rfl

/-- Where the length and the last term stay, the handle may stay, too. -/
theorem Offers.update_contents (ho : Offers handle loc h log) (hlength : log'.length = log.length)
    (hterm : log'.lastTerm = log.lastTerm) : Offers handle loc (handle.update h log').2 log' := by
  have hset := ho.attached.setContents log'.contents
  have hremembered := ho.log_eq
  subst hremembered
  exact hset.offers hlength.symm hterm.symm

/-- An operation of the handle is the operation of the log. -/
theorem Offers.change (ho : Offers handle loc h log)
    (operation : OperationLog → Except Error OperationLog) :
    ∃ handle' h', handle.changed ((handle.change operation).perform h) =
        ((log.changed (operation log)).1, handle', h') ∧
      handle'.directory = handle.directory ∧
      Offers handle' loc h' (log.changed (operation log)).2 := by
  have hlog := ho.log_eq
  cases hresult : operation log with
  | error e =>
    refine ⟨handle, h, ?_, rfl, ho⟩
    simp only [Action.perform, LogHandle.change, hlog, hresult]
    rfl
  | ok log' =>
    refine ⟨(handle.update h log').1, (handle.update h log').2, ?_, rfl, ho.update log'⟩
    simp only [Action.perform, LogHandle.change, hlog, hresult]
    rfl

/-- Whatever is asked of a handle, and whichever calls fail, it answers what its log answers, and
    stands for the log after the request. -/
theorem Offers.ask (ho : Offers handle loc h log) (f : Fault) (r : Request) :
    ∃ handle' h', handle.ask f h r = ((log.ask f r).1, handle', h') ∧
      handle'.directory = handle.directory ∧ Offers handle' loc h' (log.ask f r).2 := by
  have hlog := ho.log_eq
  cases r with
  | append e => exact ho.change fun log => log.append f e
  | appendBatch entries => exact ho.change fun log => log.appendBatch f entries
  | readSlot index =>
    refine ⟨handle, h, ?_, rfl, ho⟩
    simp only [LogHandle.ask, LogHandle.readSlot, hlog]
    rfl
  | truncate index => exact ho.change fun log => log.truncate f index.toInt
  -- Removing and collecting hand the handle back as it was: the length and the last term that it
  -- remembers are still those of the log.
  | removeSlot index =>
    cases hresult : log.removeSlot f index.toInt with
    | error e =>
      have hask : log.ask f (.removeSlot index) = (.error e, log) := by
        simp only [OperationLog.ask, hresult]
      rw [hask]
      refine ⟨handle, h, ?_, rfl, ho⟩
      simp only [LogHandle.ask, Action.perform, LogHandle.removeSlot, hlog, hresult]
      rfl
    | ok removed =>
      obtain ⟨found, log'⟩ := removed
      have hask : log.ask f (.removeSlot index) = (.ok (.found found), log') := by
        simp only [OperationLog.ask, hresult]
      obtain ⟨hlength, hterm⟩ := OperationLog.remembered_of_removeSlot hresult
      rw [hask]
      refine ⟨handle, (handle.update h log').2, ?_, rfl, ho.update_contents hlength hterm⟩
      simp only [LogHandle.ask, Action.perform, LogHandle.removeSlot, hlog, hresult]
      rfl
  | removeBefore index =>
    obtain ⟨hlength, hterm⟩ := OperationLog.remembered_removeBefore f log index.toInt
    refine ⟨handle, (handle.update h (log.removeBefore f index.toInt).2).2, ?_, rfl,
      ho.update_contents hlength hterm⟩
    simp only [LogHandle.ask, Action.perform, LogHandle.removeBefore, hlog]
    rfl

end LogHandle

end ReplicaStore
