import ReplicaStore.CommandLine.Arguments
import ReplicaStore.CommandLine.Report
import ReplicaStore.Config.Reader
import ReplicaStore.Log.Handle
import ReplicaStore.Namespace.Database

/-! # Running the tool

    A run reads its arguments and its configuration, opens what its command needs, and prints.
    Whatever it opened is closed when it ends, and what it did to the disk stays. -/

namespace ReplicaStore.CommandLine

/-- What a run prints before it ends or fails. -/
structure Output where
  text : String
  /-- Why the run failed, if it did. -/
  failure : Option Failure
deriving DecidableEq, Repr

/-- A run that printed a text and succeeded. -/
def Output.ok (text : String) : Output := ⟨text, none⟩

/-- A run that failed before it printed anything. -/
def Output.failed (failure : Failure) : Output := ⟨"", some failure⟩

/-- The output of an action that can fail; the state is the one after the action. -/
def printing {α : Type} (a : Action Host α) (next : α → Host → Output × Host) (h : Host) :
    Output × Host :=
  match a.perform h with
  | (.error e, h) => (.failed (.store e), h)
  | (.ok a, h) => next a h

/-- The output of an action whose result is printed. -/
def printingResult {α : Type} (a : Action Host α) (text : α → String) (h : Host) : Output × Host :=
  printing a (fun a h => (.ok (text a), h)) h

/-! ## The log -/

/-- The greatest limit of a dump. -/
def limitBound : Nat := 2 ^ 63

/-- The first slot of a dump and the slot after the last one. -/
def window (start : Int) (limit : Option Nat) (length : Nat) : Nat × Nat :=
  let stop : Int := match limit with
    | some limit => min (start + limit) length
    | none => length
  (start.toNat, stop.toNat)

/-- The lines of the slots that have an entry, up to the first one whose record is damaged. -/
def dumpSlots (line : Nat → Entry → String) (log : OperationLog) : List Nat → Output
  | [] => .ok ""
  | slot :: slots =>
    match log.readSlot Fault.none slot with
    | .error e => .failed (.store e)
    | .ok none => dumpSlots line log slots
    | .ok (some entry) =>
      let later := dumpSlots line log slots
      { later with text := line slot entry ++ later.text }

def dump (start : Int64) (limit : Option Nat) (json : Bool) (log : OperationLog) : Output :=
  if limit.any (limitBound ≤ ·) then .failed .limitTooLarge
  else
    let (first, stop) := window start.toInt limit log.length
    dumpSlots (if json then entryJsonLine else entryLine) log (List.range' first (stop - first))

/-- Runs a command on the log. -/
def withLog (c : Config) (next : LogHandle → Host → Output × Host) : Host → Output × Host :=
  printing (LogHandle.openBelow Fault.none c.logPath) next

/-! ## The namespaces -/

def openDatabase (c : Config) : Action Host Database :=
  Database.create Fault.none c.databasePath

def withNamespace (c : Config) (name : String) (next : Database → Host → Output × Host) :
    Host → Output × Host :=
  printing (openDatabase c) fun db h =>
    if h.disk.isDirectory (Database.directoryOf db.root name) then
      printing (db.openNamespace Fault.none name) next h
    else (.failed (.noNamespace name db.root), h)

/-- The lines of a namespace's pairs from a key on. -/
def scan (db : Database) (name : String) (start : Option String) (h : Host) : Output × Host :=
  match db.newReader? name h with
  | none => (.failed (.store (.closedNamespace name)), h)
  | some (reader, h) =>
    let cursor := match start with
      | some key => reader.cursor.seek (Utf8.encodeText key)
      | none => reader.cursor.seekToFirst
    (.ok (String.join (cursor.rest.map pairText)), reader.drop h)

/-! ## Commands -/

/-- Runs a command with its configuration. -/
def runCommand (c : Config) : Command → Host → Output × Host
  | .logInfo => withLog c fun log h => (.ok (logInfoText log.directory log.length log.lastTerm), h)
  | .logDump start limit json => withLog c fun log h => (dump start limit json (log.log h), h)
  | .logTruncate index => withLog c fun log =>
    printingResult (log.truncate Fault.none index.toInt) fun after =>
      truncateText log.length after.length
  | .logCollect index => withLog c fun log =>
    printingResult (log.removeBefore Fault.none index.toInt) fun count => collectText count index
  | .metaShow => printingResult (Host.onDisk (Metadata.openAt c.metadataPath)) metadataText
  | .dataGet name key => withNamespace c name fun db =>
    printingResult (db.get Fault.none name (Utf8.encodeText key)) valueText
  | .dataPut name key value =>
    printing (openDatabase c) fun db =>
      printing (db.openNamespace Fault.none name) fun db =>
        printingResult (db.put Fault.none name (Utf8.encodeText key) (Utf8.encodeText value))
          fun _ => ""
  | .dataDelete name key => withNamespace c name fun db =>
    printingResult (db.delete Fault.none name (Utf8.encodeText key)) fun _ => ""
  | .dataScan name start => withNamespace c name fun db => scan db name start

/-- The configuration of a run: its file, if it exists, with what the arguments say instead. -/
def configOf (args : Arguments) (d : Disk) : Except Failure Config := do
  let loaded ← if d.contains args.config then
      (Config.load d args.config).mapError (.loading args.config)
    else pure Config.default
  let c := { loaded with
    dataDirectory := args.dataDirectory.getD loaded.dataDirectory
    level := args.level.getD loaded.level }
  (c.validate).mapError fun e => .store (.config e)
  if ¬ d.isDirectory c.dataDirectory then throw (.noDirectory c.dataDirectory)
  return c

/-- Runs the tool with its arguments. The engines that it opened are closed afterwards. -/
def runArguments (args : Arguments) (h : Host) : Output × Host :=
  match configOf args h.disk with
  | .error failure => (.failed failure, h)
  -- What the command opened is closed again: only the engines from before stay live.
  | .ok c =>
    let (output, after) := runCommand c args.command h
    (output, { after with engines := h.engines })

/-! ## Outcomes -/

/-- What is left of a run: its exit code and what it printed. -/
structure Outcome where
  /-- The exit code: one after a failure, two after a misuse. -/
  exit : Nat
  /-- What was printed as output. -/
  stdout : String
  /-- What was printed as report. The lines that the tool logs stand there too, each with the time
      of its writing; they are no part of it. -/
  stderr : String
deriving DecidableEq, Repr

def toolName : String := "chubby-storectl"

def toolVersion : String := "0.1.0"

def usage : String := lines
  ["Inspect and maintain chubby node storage", "",
    "Usage: " ++ toolName ++ " [OPTIONS] <COMMAND>", "",
    "Options:",
    "  -c, --config <CONFIG>        Configuration file path",
    "      --data-dir <DATA_DIR>    Storage root (overrides storage.data_dir)",
    "      --log-level <LOG_LEVEL>  Log level (overrides logging.level)", "",
    "Commands:",
    "  log info",
    "  log dump [--from <SLOT>] [--limit <COUNT>] [--json]",
    "  log truncate <INDEX>",
    "  log gc <INDEX>",
    "  meta show",
    "  data get <NAMESPACE> <KEY>",
    "  data put <NAMESPACE> <KEY> <VALUE>",
    "  data delete <NAMESPACE> <KEY>",
    "  data scan <NAMESPACE> [--from <KEY>]"]

def Output.outcome (output : Output) : Outcome :=
  match output.failure with
  | none => ⟨0, output.text, ""⟩
  | some failure => ⟨1, output.text, failure.report⟩

/-- Runs the tool on a host. -/
def run (args : List String) (environment : Option String) (h : Host) : Outcome × Host :=
  match Arguments.read args environment with
  | .error .help => (⟨0, usage, ""⟩, h)
  | .error .version => (⟨0, toolName ++ " " ++ toolVersion ++ "\n", ""⟩, h)
  | .error .misuse => (⟨2, "", usage⟩, h)
  | .ok args =>
    let (output, h) := runArguments args h
    (output.outcome, h)

end ReplicaStore.CommandLine
