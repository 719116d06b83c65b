import ReplicaStore.Disk.OsError
import ReplicaStore.Engine.Batch

/-! # Engine failures

    Every call to an engine may fail. A *fault* says which calls do: a failing call does nothing and
    reports the failure, and any set of calls can be made to fail. A cursor moves as usual whatever
    the fault; only the question for its status can fail. -/

namespace ReplicaStore

/-! ## Errors -/

/-- Why an engine refused a call. -/
inductive EngineError where
  /-- The operating system refused. -/
  | io (e : OsError)
  /-- The engine's file could not be used. -/
  | file (e : OsError)
  /-- The engine is open elsewhere. -/
  | locked
  /-- A cursor still reads a snapshot of the engine. -/
  | busy
  /-- A cursor failed. -/
  | iteration (text : String)
  /-- Another failure, in the words of who reports it. -/
  | other (text : String)
deriving DecidableEq, Repr

def EngineError.message : EngineError → String
  | .io e => s!"io error: {e.message}"
  | .file e => s!"redb error: I/O error: {e.message}"
  | .locked => "redb error: Database already open. Cannot acquire lock."
  | .busy =>
    "redb compaction error: A transaction is still in progress. Operation cannot be performed."
  | .iteration text => s!"iteration failed: {text}"
  | .other text => text

/-! ## Calls -/

/-- A call to an engine. -/
inductive Call where
  /-- Opening the engine of a directory. -/
  | openAt (directory : String)
  | get (key : Bytes)
  /-- Applying a batch; single writes are batches of one. An empty batch is a call too: an engine
      has nothing to do for it, but a store that stands in front of the engine may refuse it. -/
  | write (batch : Batch)
  | compact
  /-- Asking a cursor whether it failed. -/
  | status
deriving DecidableEq, Repr

/-- What a failing call reports. -/
def Call.failure : Call → EngineError
  | .openAt _ => .other "injected open failure"
  | .get _ => .other "injected get failure"
  | .write _ => .other "injected write failure"
  | .compact => .other "injected compact failure"
  | .status => .iteration "injected"

/-- Which calls fail. -/
structure Fault where
  fails : Call → Bool

namespace Fault

def none : Fault := ⟨fun _ => false⟩

/-- Lets a call through, or reports its failure. -/
def check (f : Fault) (call : Call) : Except EngineError Unit :=
  if f.fails call then .error call.failure else .ok ()

theorem check_eq_ok_iff {f : Fault} {call : Call} :
    f.check call = .ok () ↔ f.fails call = false := by
  unfold check
  split <;> simp_all

/-! ## Calls on contents -/

def get (f : Fault) (c : Contents) (key : Bytes) : Except EngineError (Option Bytes) := do
  f.check (.get key)
  return c.get? key

def write (f : Fault) (c : Contents) (batch : Batch) : Except EngineError Contents := do
  f.check (.write batch)
  return c.applyBatch batch

/-- Asks a cursor whether it failed. -/
def status (f : Fault) : Except EngineError Unit :=
  f.check .status

@[simp] theorem get_none (c : Contents) (key : Bytes) : none.get c key = .ok (c.get? key) := rfl

@[simp] theorem write_none (c : Contents) (batch : Batch) :
    none.write c batch = .ok (c.applyBatch batch) := rfl

/-- Whether the failures are those of an engine: it lets every empty batch through, because it does
    not start to write for one. -/
def IsEngines (f : Fault) : Prop :=
  f.fails (.write []) = false

theorem IsEngines.write_nil {f : Fault} (h : f.IsEngines) (c : Contents) :
    f.write c [] = .ok c := by
  unfold write
  rw [check_eq_ok_iff.2 h]
  rfl

end Fault

end ReplicaStore
