import ReplicaStore.Disk.OsError
import ReplicaStore.Text.Utf8

/-! # Paths and names

    A path is a text of names with slashes between them. Appending a path to another puts one slash
    between them, unless the first ends in one; a path that starts with a slash stands for itself.
    On a disk a path names a *location*: the names on the way from the root. A single dot names the
    directory that it stands in, and two dots name the one above.

    A disk bounds the bytes of a name, and the system bounds those of a path before it looks
    anywhere. -/

namespace ReplicaStore

/-- The names on the way from the root of a disk. -/
abbrev Location := List String

namespace Path

def separator : Char := '/'

def isAbsolute (path : String) : Bool :=
  path.toList.head? = some separator

/-- A path with another one appended. -/
def join (base path : String) : String :=
  if isAbsolute path ∨ base = "" then path
  else if base.toList.getLast? = some separator then base ++ path
  else base ++ "/" ++ path

/-- The pieces of a text between slashes. -/
def splitSlashes : List Char → List (List Char)
  | [] => [[]]
  | c :: cs =>
    if c = separator then [] :: splitSlashes cs
    else match splitSlashes cs with
      | [] => [[c]]
      | piece :: pieces => (c :: piece) :: pieces

/-- The names of a path: its pieces without the empty ones. -/
def names (path : String) : List String :=
  ((splitSlashes path.toList).filter (· ≠ [])).map String.ofList

/-- The name of the directory that it stands in. -/
def selfName : String := "."

/-- The name that leads to the parent. -/
def parentName : String := ".."

/-- Where a name leads from a directory. -/
def step (loc : Location) (name : String) : Location :=
  if name = selfName then loc
  else if name = parentName then loc.dropLast
  else loc ++ [name]

/-- The names that making the directories of a path goes through. A single dot leads nowhere else,
    so it counts only at the end, where it asks for the directory before it. -/
def directoryNames (path : String) : List String :=
  let all := names path
  let plain := all.filter (· ≠ selfName)
  if all.getLast? = some selfName then plain ++ [selfName] else plain

/-- Whether a path ends in a slash, and so can name nothing but a directory. -/
def endsInSlash (path : String) : Bool :=
  path.toList.getLast? = some separator

def nameLimit : Nat := 255

/-- Whether a name is longer than a disk can hold. -/
def isTooLong (name : String) : Bool :=
  nameLimit < (Utf8.encodeText name).length

def pathLimit : Nat := 4095

/-- Whether a path holds the character that ends paths in calls to the system. -/
def holdsNul (path : String) : Bool :=
  path.toList.contains '\x00'

/-- What the system refuses of a path before it looks at the disk. -/
def check (path : String) : Except OsError Unit :=
  if holdsNul path then .error .nulInPath
  else if path = "" then .error .notFound
  else if pathLimit < (Utf8.encodeText path).length then .error .nameTooLong
  else .ok ()

@[simp] theorem step_selfName (loc : Location) : step loc selfName = loc := by
  simp [step]

/-- Any other name leads one level down. -/
theorem step_of_ne {name : String} (hs : name ≠ selfName) (hp : name ≠ parentName)
    (loc : Location) : step loc name = loc ++ [name] := by
  simp [step, hs, hp]

theorem splitSlashes_ne_nil (cs : List Char) : splitSlashes cs ≠ [] := by
  cases cs with
  | nil => simp [splitSlashes]
  | cons c cs =>
    simp only [splitSlashes]
    split
    · simp
    · split <;> simp

end Path

end ReplicaStore
