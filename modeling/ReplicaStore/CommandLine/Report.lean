import ReplicaStore.Error
import ReplicaStore.Log.EntryJson
import ReplicaStore.Metadata.Basic

/-! # What the tool prints

    The lines of each command, and the report of a failure: the outermost message and, below it, the
    message of what caused it. -/

namespace ReplicaStore.CommandLine

/-! ## Columns -/

/-- A text filled up with blanks on the right. -/
def padRight (width : Nat) (s : String) : String :=
  s ++ String.ofList (List.replicate (width - s.length) ' ')

/-- A text filled up with blanks on the left. -/
def padLeft (width : Nat) (s : String) : String :=
  String.ofList (List.replicate (width - s.length) ' ') ++ s

/-- Lines, each with its end. -/
def lines (ls : List String) : String :=
  String.join (ls.map fun l => l ++ "\n")

/-! ## The log -/

/-- Length, last index and last term of a log. -/
def logInfoText (directory : String) (length : Nat) (lastTerm : Int64) : String :=
  let lastIndex : Int := (length : Int) - 1
  lines ["Operation Log", "=============", s!"Path:       {directory}", s!"Length:     {length}",
    s!"Last index: {lastIndex}", s!"Last term:  {lastTerm.toInt}"]

def entryLine (slot : Nat) (e : Entry) : String :=
  let index := padLeft 8 (toString slot)
  let term := padRight 6 (toString e.term.toInt)
  let operation := padRight 7 e.operation.name
  let user := Quoted.text e.user
  let key := Quoted.text e.key
  let value := Quoted.text e.value
  s!"{index}  term={term} {operation} user={user} key={key} value={value}\n"

def entryJsonLine (slot : Nat) (e : Entry) : String :=
  e.toJsonAt slot ++ "\n"

/-- What a cut says. -/
def truncateText (before after : Nat) : String :=
  s!"Log length: {before} -> {after}\n"

/-- What a collection says. -/
def collectText (count : Nat) (index : Int64) : String :=
  s!"Removed {count} slots below {index.toInt}\n"

/-! ## The metadata -/

def voteLine (v : Vote) : String :=
  let term := padRight 12 (toString v.term.toInt)
  s!"{term} {v.server}"

/-- Term, root principal and votes. -/
def metadataText (m : Metadata) : String :=
  let root := match m.root with
    | some root => root.name
    | none => "(not set)"
  let votes := match m.votes with
    | [] => ["No votes recorded"]
    | votes => [padRight 12 "TERM" ++ " VOTED FOR", String.ofList (List.replicate 40 '-')]
        ++ votes.map voteLine
  lines (["Consensus Metadata", "==================", s!"Path:         {m.directory}",
    s!"Current term: {m.term.toInt}", s!"Root:         {root}", ""] ++ votes)

/-! ## The namespaces -/

/-- A value on a line. -/
def valueText (value : Bytes) : String :=
  Utf8.lossyText value ++ "\n"

/-- A key and its value on a line. -/
def pairText (p : Pair) : String :=
  Utf8.lossyText p.1 ++ "\t" ++ Utf8.lossyText p.2 ++ "\n"

/-! ## Failures -/

/-- Why a run of the tool failed. -/
inductive Failure where
  /-- An operation of the store failed. -/
  | store (e : Error)
  /-- The configuration file cannot be used. -/
  | loading (path : String) (e : ConfigError)
  /-- The data directory is missing. -/
  | noDirectory (path : String)
  /-- A namespace has no directory in the database. -/
  | noNamespace (name root : String)
  /-- A limit that no number of slots can reach. -/
  | limitTooLarge
deriving DecidableEq, Repr

namespace Failure

/-- The outermost message. -/
def message : Failure → String
  | .store e => e.message
  | .loading path _ => s!"loading {path}"
  | .noDirectory path => s!"storage directory {path} does not exist"
  | .noNamespace name root =>
    let shown := Quoted.text name
    s!"namespace {shown} does not exist in {root}"
  | .limitTooLarge => "number too large to fit in target type"

/-- The message of what caused the failure, where the outermost message hides something. -/
def source? : Failure → Option String
  | .store (.io e) => some e.message
  | .store (.stated .io text) => some text
  | .loading _ e => some (Error.config e).message
  | _ => none

/-- A text with every line after the first indented. -/
def indent (s : String) : String :=
  String.ofList (s.toList.flatMap fun c => if c = '\n' then '\n' :: [' ', ' ', ' ', ' '] else [c])

def report (failure : Failure) : String :=
  let cause := match failure.source? with
    | some text => "\n\nCaused by:\n    " ++ indent text
    | none => ""
  "Error: " ++ failure.message ++ cause ++ "\n"

end Failure

end ReplicaStore.CommandLine
