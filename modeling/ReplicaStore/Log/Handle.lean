import ReplicaStore.Engine.Host
import ReplicaStore.Log.Basic

/-! # The operation log of a directory

    The log lives in an engine of its own, in a directory below the one that it is opened for. A
    handle remembers the length and the last term; what the engine holds stays on the disk, and each
    operation works on what the disk shows. -/

namespace ReplicaStore

/-- An open log of a host. -/
structure LogHandle where
  /-- The directory of the engine. -/
  directory : String
  engine : EngineId
  length : Nat
  lastTerm : Int64
deriving DecidableEq, Repr

namespace LogHandle

def directoryName : String := "#binlog"

/-- The log that a handle stands for. -/
def log (handle : LogHandle) (h : Host) : OperationLog :=
  ⟨h.contents handle.engine, handle.length, handle.lastTerm⟩

/-- The handle and the host after the log has changed. -/
def update (handle : LogHandle) (h : Host) (log : OperationLog) : LogHandle × Host :=
  ({ handle with length := log.length, lastTerm := log.lastTerm },
    h.setContents handle.engine log.contents)

/-- Opens the log below a directory, making what is missing. -/
def openBelow (f : Fault) (parent : String) : Action Host LogHandle := do
  let directory := Path.join parent directoryName
  Host.onDisk fun d =>
    let (r, d) := d.makeDirectories directory
    (r.mapError .io, d)
  let engine ← Host.openEngine f directory
  fun h =>
    match OperationLog.openOn f (h.contents engine) with
    | .error e => (.error e, h.dropOwner engine)
    | .ok log => (.ok ⟨directory, engine, log.length, log.lastTerm⟩, h)

def close (handle : LogHandle) (h : Host) : Host :=
  h.dropOwner handle.engine

/-- Performs an operation that gives the log after it. -/
def change (handle : LogHandle) (operation : OperationLog → Except Error OperationLog) :
    Action Host LogHandle := fun h =>
  match operation (handle.log h) with
  | .error e => (.error e, h)
  | .ok log =>
    let (handle, h) := handle.update h log
    (.ok handle, h)

def readSlot (f : Fault) (handle : LogHandle) (index : Int) (h : Host) :
    Except Error (Option Entry) :=
  (handle.log h).readSlot f index

def appendBatch (f : Fault) (handle : LogHandle) (entries : List Entry) : Action Host LogHandle :=
  handle.change fun log => log.appendBatch f entries

def truncate (f : Fault) (handle : LogHandle) (index : Int) : Action Host LogHandle :=
  handle.change fun log => log.truncate f index

def removeSlot (f : Fault) (handle : LogHandle) (index : Int) : Action Host Bool := fun h =>
  match (handle.log h).removeSlot f index with
  | .error e => (.error e, h)
  | .ok (found, log) => (.ok found, (handle.update h log).2)

def removeBefore (f : Fault) (handle : LogHandle) (index : Int) : Action Host Nat := fun h =>
  let (r, log) := (handle.log h).removeBefore f index
  (r, (handle.update h log).2)

end LogHandle

end ReplicaStore
