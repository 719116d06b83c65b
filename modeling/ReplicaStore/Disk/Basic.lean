import ReplicaStore.Disk.Path
import ReplicaStore.Engine.Contents

/-! # The disk

    A disk is a tree of directories, files and engine files. A file holds bytes and has an identity,
    so that a file that was removed and made anew can be told from the one before. An engine file
    holds the contents of an engine; its bytes are the engine's own affair.

    Paths lead from the working directory, or from the root if they are absolute. A name is looked
    up in a directory, so every name but the last must lead to one; that holds of dots too, and a
    path that ends in a dot or in a slash leads to nothing but a directory. -/

namespace ReplicaStore

/-! ## State -/

/-- What stands at a location. -/
inductive Node where
  | directory
  /-- A file: its identity and its bytes. -/
  | file (identity : Nat) (data : Bytes)
  | engine (contents : Contents)

/-- What a node is filed under: its depth, which tells most locations apart at once, and its
    location. -/
abbrev NodeKey := Nat × Location

/-- A disk, with the directory that relative paths start from. -/
structure Disk where
  /-- What stands where. -/
  nodes : List (NodeKey × Node)
  /-- Where relative paths start. -/
  workingDirectory : Location
  /-- The identity of the next file. -/
  nextIdentity : Nat

namespace Disk

def keyOf (loc : Location) : NodeKey := (loc.length, loc)

def node? (d : Disk) (loc : Location) : Option Node :=
  d.nodes.lookup (keyOf loc)

/-- The disk with nothing at a location. -/
def clear (d : Disk) (loc : Location) : Disk :=
  let key := keyOf loc
  { d with nodes := d.nodes.filter (fun p => p.1 ≠ key) }

/-- The disk with a node put at a location. -/
def put (d : Disk) (loc : Location) (n : Node) : Disk :=
  { d with nodes := (keyOf loc, n) :: (d.clear loc).nodes }

/-- The locations on the way to a location, the root first. -/
def ancestry (loc : Location) : List Location :=
  (List.range (loc.length + 1)).map loc.take

/-- A disk that holds a working directory and nothing else. -/
def empty (workingDirectory : Location) : Disk :=
  ⟨(ancestry workingDirectory).map fun loc => (keyOf loc, .directory), workingDirectory, 0⟩

theorem keyOf_inj {loc other : Location} : keyOf loc = keyOf other ↔ loc = other :=
  ⟨congrArg Prod.snd, congrArg keyOf⟩

@[simp] theorem node?_clear (d : Disk) (loc other : Location) :
    (d.clear loc).node? other = if other = loc then none else d.node? other := by
  simp only [node?, clear]
  induction d.nodes with
  | nil => simp
  | cons p ps ih =>
    obtain ⟨key, m⟩ := p
    by_cases hk : key = keyOf loc
    · by_cases h : other = loc
      · simpa [hk, h] using ih
      · have hne : (keyOf other == keyOf loc) = false :=
          beq_eq_false_iff_ne.2 fun e => h (keyOf_inj.1 e)
        simpa [hk, h, List.lookup_cons, hne] using ih
    · by_cases ho : keyOf other = key
      · have h : other ≠ loc := fun e => hk (ho ▸ congrArg keyOf e)
        simp [hk, h, ho]
      · simpa [hk, List.lookup_cons, beq_eq_false_iff_ne.2 ho] using ih

@[simp] theorem node?_put (d : Disk) (loc : Location) (n : Node) (other : Location) :
    (d.put loc n).node? other = if other = loc then some n else d.node? other := by
  by_cases h : other = loc
  · simp [node?, put, h]
  · have hne : (keyOf other == keyOf loc) = false :=
      beq_eq_false_iff_ne.2 fun e => h (keyOf_inj.1 e)
    have := node?_clear d loc other
    simpa [node?, put, h, List.lookup_cons, hne] using this

/-! ## Finding a location -/

/-- Where names lead from a directory. -/
def walk (d : Disk) (loc : Location) : List String → Except OsError Location
  | [] => .ok loc
  | name :: names =>
    match d.node? loc with
    | none => .error .notFound
    | some .directory =>
      if Path.isTooLong name then .error .nameTooLong
      else d.walk (Path.step loc name) names
    | some _ => .error .notDirectory

def start (d : Disk) (path : String) : Location :=
  if Path.isAbsolute path then [] else d.workingDirectory

/-- The location that a path leads to, whether something stands there or not. -/
def locate (d : Disk) (path : String) : Except OsError Location := do
  Path.check path
  d.walk (d.start path) (Path.names path)

/-- The node that a path leads to. -/
def find (d : Disk) (path : String) : Except OsError Node := do
  match d.node? (← d.locate path) with
  | none => throw .notFound
  | some .directory => return .directory
  | some n => if Path.endsInSlash path then throw .notDirectory else return n

/-- Whether something stands at the end of a path. -/
def contains (d : Disk) (path : String) : Bool :=
  (d.find path).isOk

def isDirectory (d : Disk) (path : String) : Bool :=
  match d.find path with
  | .ok .directory => true
  | _ => false

/-! ## Directories -/

/-- Makes the directories that names lead through, from a directory on, up to the first name that
    cannot be made or entered. As long as nothing is missing, the way is only walked. From the first
    missing directory on (`making`), each name is asked to become a directory in its turn. -/
def makeAlong (d : Disk) (loc : Location) (making : Bool) :
    List String → Except OsError Unit × Disk
  | [] => (.ok (), d)
  | name :: names =>
    if Path.isTooLong name then (.error .nameTooLong, d)
    else
      let child := Path.step loc name
      match d.node? child with
      | some .directory => d.makeAlong child making names
      -- A file is in the way where a directory is asked for; where one is walked through, which a
      -- final dot does too, it is no way.
      | some _ =>
        let inTheWay := names = [] ∨ (making ∧ names ≠ [Path.selfName])
        (.error (if inTheWay then .alreadyExists else .notDirectory), d)
      -- A final dot is entered, not made, so the name before it must be there.
      | none =>
        if names = [Path.selfName] then (.error .notFound, d)
        else (d.put child .directory).makeAlong child true names

/-- Makes a directory with all the directories above it, as far as they are missing. -/
def makeDirectories (d : Disk) (path : String) : Except OsError Unit × Disk :=
  if path = "" then (.ok (), d)
  else match Path.check path with
    | .error e => (.error e, d)
    | .ok () => d.makeAlong (d.start path) false (Path.directoryNames path)

/-! ## Files -/

/-- The bytes of a file. -/
def read (d : Disk) (path : String) : Except OsError Bytes := do
  match ← d.find path with
  | .directory => throw .isDirectory
  | .file _ data => return data
  | .engine _ => throw (.other "the file belongs to an engine")

def readText (d : Disk) (path : String) : Except OsError String := do
  match Utf8.decodeText (← d.read path) with
  | .ok text => return text
  | .error _ => throw .notText

/-- The disk with the bytes of the file at a location set; a missing file is made. -/
def setData (d : Disk) (loc : Location) (data : Bytes) : Disk :=
  match d.node? loc with
  | some (.file identity _) => d.put loc (.file identity data)
  | _ => { d.put loc (.file d.nextIdentity data) with nextIdentity := d.nextIdentity + 1 }

/-- The identity and the bytes of the file at a location; a missing file is made empty. -/
def ensureFile (d : Disk) (loc : Location) : (Nat × Bytes) × Disk :=
  match d.node? loc with
  | some (.file identity data) => ((identity, data), d)
  | _ => ((d.nextIdentity, []), d.setData loc [])

/-- The location of a file to be written, which is missing or a file so far. Before a final slash no
    file can be made, so the name that stands there is not even looked up. -/
def locateFile (d : Disk) (path : String) : Except OsError Location := do
  if Path.endsInSlash path then
    Path.check path
    let above := (Path.names path).dropLast ++ [Path.selfName]
    let _ ← d.walk (d.start path) above
    throw .isDirectory
  let loc ← d.locate path
  match d.node? loc with
  | some .directory => throw .isDirectory
  | some (.engine _) => throw (.other "the file belongs to an engine")
  | _ => return loc

/-- The disk with the bytes of a file replaced. -/
def write (d : Disk) (path : String) (data : Bytes) : Except OsError Disk := do
  return d.setData (← d.locateFile path) data

def remove (d : Disk) (path : String) : Except OsError Disk := do
  match ← d.find path with
  | .directory => throw .isDirectory
  | _ => return d.clear (← d.locate path)

end Disk

end ReplicaStore
