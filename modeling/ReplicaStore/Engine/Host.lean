import ReplicaStore.Action
import ReplicaStore.Disk.Basic
import ReplicaStore.Engine.Cursor

/-! # Live engines

    A host is a disk and the engines that are open on it. An engine lives in a file of its directory
    and is exclusive: while it is open, no one else can open it. It stays open as long as someone
    owns it or a reader walks a snapshot of it, and what it holds is on the disk all the time, so
    closing loses nothing. -/

namespace ReplicaStore

/-! ## State -/

abbrev EngineId := Nat

structure LiveEngine where
  /-- Which engine it is; an engine that is opened again is another one. -/
  id : EngineId
  /-- Where its file is. -/
  location : Location
  /-- How many own it. -/
  owners : Nat
  /-- How many readers walk a snapshot of it. -/
  readers : Nat
deriving DecidableEq, Repr

/-- A disk with the engines that are open on it. -/
structure Host where
  disk : Disk
  engines : List LiveEngine
  /-- The identity of the next engine. -/
  nextEngine : EngineId

namespace Host

/-- A host on which no engine is open. -/
def ofDisk (d : Disk) : Host := ⟨d, [], 0⟩

def onDisk {α : Type} (a : Action Disk α) : Action Host α :=
  a.onPart Host.disk fun d h => { h with disk := d }

def engine? (h : Host) (id : EngineId) : Option LiveEngine :=
  h.engines.find? (fun e => e.id = id)

def isLive (h : Host) (id : EngineId) : Bool :=
  (h.engine? id).isSome

/-- Whether the engine of a file is open. -/
def isLocked (h : Host) (loc : Location) : Bool :=
  h.engines.any (fun e => e.location = loc)

/-! ## Contents -/

/-- The contents of the engine file at a location. -/
def contentsAt (h : Host) (loc : Location) : Contents :=
  match h.disk.node? loc with
  | some (.engine c) => c
  | _ => Contents.empty

def setContentsAt (h : Host) (loc : Location) (c : Contents) : Host :=
  { h with disk := h.disk.put loc (.engine c) }

def contents (h : Host) (id : EngineId) : Contents :=
  match h.engine? id with
  | some e => h.contentsAt e.location
  | none => Contents.empty

def setContents (h : Host) (id : EngineId) (c : Contents) : Host :=
  match h.engine? id with
  | some e => h.setContentsAt e.location c
  | none => h

/-! ## Opening -/

def engineFileName : String := "engine.redb"

/-- The location of the engine file of a directory; what is missing is made, and a plain file
    without a byte becomes an engine file too. -/
def ensureEngine (directory : String) : Action Host Location := fun h =>
  match h.disk.makeDirectories directory with
  | (.error e, d) => (.error (.engine (.io e)), { h with disk := d })
  | (.ok (), d) =>
    let h := { h with disk := d }
    match d.locate (Path.join directory engineFileName) with
    | .error e => (.error (.engine (.file e)), h)
    | .ok loc =>
      match d.node? loc with
      | some (.engine _) => (.ok loc, h)
      | none | some (.file _ []) => (.ok loc, h.setContentsAt loc Contents.empty)
      | some .directory => (.error (.engine (.file .isDirectory)), h)
      | some (.file _ (_ :: _)) => (.error (.engine (.file (.other "invalid data"))), h)

/-- Opens the engine of a directory for one owner. -/
def openEngine (f : Fault) (directory : String) : Action Host EngineId := do
  Action.lift ((f.check (.openAt directory)).mapError .engine)
  let loc ← ensureEngine directory
  fun h =>
    if h.isLocked loc then (.error (.engine .locked), h)
    else
      (.ok h.nextEngine, { h with
        engines := ⟨h.nextEngine, loc, 1, 0⟩ :: h.engines
        nextEngine := h.nextEngine + 1 })

/-! ## Owners and readers -/

/-- The host with the counts of a live engine changed; an engine without owner and reader closes. -/
def recount (h : Host) (id : EngineId) (change : LiveEngine → LiveEngine) : Host :=
  let updated := h.engines.map (fun e => if e.id = id then change e else e)
  { h with engines := updated.filter (fun e => 0 < e.owners + e.readers) }

def addOwner (h : Host) (id : EngineId) : Host :=
  h.recount id fun e => { e with owners := e.owners + 1 }

def dropOwner (h : Host) (id : EngineId) : Host :=
  h.recount id fun e => { e with owners := e.owners - 1 }

def hasReader (h : Host) (id : EngineId) : Bool :=
  match h.engine? id with
  | some e => 0 < e.readers
  | none => false

/-! ## Calls -/

def get (f : Fault) (id : EngineId) (key : Bytes) : Action Host (Option Bytes) :=
  Action.query fun h => (f.get (h.contents id) key).mapError .engine

def write (f : Fault) (id : EngineId) (batch : Batch) : Action Host Unit := fun h =>
  match f.write (h.contents id) batch with
  | .error e => (.error (.engine e), h)
  | .ok c => (.ok (), h.setContents id c)

/-- Reclaims the space of what was removed from a live engine, which no reader may walk. -/
def compact (f : Fault) (id : EngineId) : Action Host Unit := Action.query fun h =>
  match f.check .compact with
  | .error e => .error (.engine e)
  | .ok () => if h.hasReader id then .error (.engine .busy) else .ok ()

end Host

/-! ## Readers -/

/-- A cursor that keeps its engine open. -/
structure Reader where
  engine : EngineId
  /-- The cursor over the engine's contents when the reader was made. -/
  cursor : Cursor

namespace Reader

/-- A new reader of a live engine. -/
def make (h : Host) (id : EngineId) : Reader × Host :=
  (⟨id, Cursor.before (h.contents id)⟩, h.recount id fun e => { e with readers := e.readers + 1 })

/-- The host without a reader. -/
def drop (r : Reader) (h : Host) : Host :=
  h.recount r.engine fun e => { e with readers := e.readers - 1 }

def move (r : Reader) (f : Cursor → Cursor) : Reader :=
  { r with cursor := f r.cursor }

def status (f : Fault) : Except Error Unit :=
  f.status.mapError .engine

end Reader

end ReplicaStore
