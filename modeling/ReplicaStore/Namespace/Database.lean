import ReplicaStore.Engine.Host

/-! # Namespaces

    A database is a directory with one engine directory per namespace. The namespace without a name
    is open from the start; others are opened and closed by name. A namespace that is closed while a
    reader still walks it is remembered, and opening it again picks its live engine up; so a reader
    never keeps its own namespace from being opened again.

    A name becomes part of a directory's name and must not lead elsewhere: it holds no separator, no
    NUL and no two dots in a row. -/

namespace ReplicaStore

structure Database where
  /-- The directory of all namespaces. -/
  root : String
  /-- The open namespaces with their engines. -/
  opened : List (String × EngineId)
  /-- Closed namespaces whose engines had readers when they were closed. -/
  closed : List (String × EngineId)
deriving DecidableEq, Repr

namespace Database

/-! ## Names -/

/-- The namespace that is open from the start. -/
def defaultNamespace : String := ""

/-- What the name of a namespace's directory ends in. -/
def directorySuffix : String := "@db"

def hasTwoDots : List Char → Bool
  | '.' :: '.' :: _ => true
  | _ :: cs => hasTwoDots cs
  | [] => false

/-- Whether a namespace may have a name. -/
def isValidName (name : String) : Bool :=
  let cs := name.toList
  ¬ (cs.contains '/' ∨ cs.contains '\\' ∨ cs.contains '\x00' ∨ hasTwoDots cs)

def directoryName (name : String) : String :=
  name ++ directorySuffix

def directoryOf (root name : String) : String :=
  Path.join root (directoryName name)

/-! ## Open namespaces -/

def engineOf? (db : Database) (name : String) : Option EngineId :=
  db.opened.lookup name

def isOpen (db : Database) (name : String) : Bool :=
  (db.engineOf? name).isSome

/-- The names of the open namespaces, in ascending order. -/
def namespaces (db : Database) : List String :=
  (db.opened.map Prod.fst).mergeSort fun a b => ¬ b < a

/-- The list without the entries of a name. -/
def without (name : String) (entries : List (String × EngineId)) : List (String × EngineId) :=
  entries.filter (fun e => e.1 ≠ name)

/-- The closed namespace's engine that is still live, if there is one. -/
def liveClosed? (db : Database) (h : Host) (name : String) : Option EngineId :=
  (db.closed.lookup name).filter h.isLive

/-- The database with a namespace open on an engine. -/
def withOpen (db : Database) (name : String) (id : EngineId) : Database :=
  { db with opened := (name, id) :: db.opened, closed := without name db.closed }

/-- Opens a namespace, making its directory if it is missing. An open namespace stays open. -/
def openNamespace (f : Fault) (db : Database) (name : String) : Action Host Database := do
  if ¬ isValidName name then throw (.invalidNamespace name)
  if db.isOpen name then return db
  match db.liveClosed? (← get) name with
  | some id =>
    modify fun h => h.addOwner id
    return db.withOpen name id
  | none =>
    let id ← Host.openEngine f (directoryOf db.root name)
    return db.withOpen name id

/-- Closes a namespace. A closed one stays closed. Engines that are no longer live are forgotten. -/
def closeNamespace (db : Database) (name : String) (h : Host) : Database × Host :=
  let closed := db.closed.filter (fun e => h.isLive e.2)
  match db.engineOf? name with
  | none => ({ db with closed }, h)
  | some id =>
    -- The engine outlives the namespace only if a reader keeps it.
    let closed := if h.hasReader id then (name, id) :: without name closed else closed
    ({ db with opened := without name db.opened, closed }, h.dropOwner id)

/-- Opens the database of a directory with its default namespace. -/
def create (f : Fault) (root : String) : Action Host Database := do
  Host.onDisk fun d =>
    let (r, d) := d.makeDirectories root
    (r.mapError .io, d)
  openNamespace f ⟨root, [], []⟩ defaultNamespace

/-- Closes a database with all its namespaces. -/
def close (db : Database) (h : Host) : Host :=
  db.opened.foldl (fun h e => h.dropOwner e.2) h

/-! ## Keys -/

/-- The engine of an open namespace, or the refusal of a closed one. -/
def engineOf (db : Database) (name : String) : Except Error EngineId :=
  match db.engineOf? name with
  | some id => .ok id
  | none => .error (.closedNamespace name)

def get (f : Fault) (db : Database) (name : String) (key : Bytes) : Action Host Bytes := do
  let id ← Action.lift (db.engineOf name)
  match ← Host.get f id key with
  | some value => return value
  | none => throw (.missingKey key name)

def put (f : Fault) (db : Database) (name : String) (key value : Bytes) : Action Host Unit := do
  let id ← Action.lift (db.engineOf name)
  Host.write f id [.put key value]

/-- Removes a key; an absent one may be removed too. -/
def delete (f : Fault) (db : Database) (name : String) (key : Bytes) : Action Host Unit := do
  let id ← Action.lift (db.engineOf name)
  Host.write f id [.delete key]

def newReader? (db : Database) (name : String) (h : Host) : Option (Reader × Host) :=
  (db.engineOf? name).map (Reader.make h)

end Database

end ReplicaStore
