import ReplicaStore.Text.Decimal

/-! # Arguments

    The tool takes options, then a group and a command of the group, then the command's own options
    and operands in any order. An option's value follows it, or stands after an equals sign. What
    starts with a dash is an option, unless it is a single dash, comes after a double dash, or is a
    negative number where one is allowed. No option may be given twice.

    The arguments are read from left to right, and the first that cannot be used, or that asks for
    help or the version, decides. One value is looked at late: that of the option right before the
    group, which waits until the command has been read. -/

namespace ReplicaStore.CommandLine

/-! ## Commands -/

/-- What the tool is asked to do. -/
inductive Command where
  /-- Show length, last index and last term of the log. -/
  | logInfo
  /-- Print entries from a slot on, at most `limit`, as JSON or as text. -/
  | logDump (start : Int64) (limit : Option Nat) (json : Bool)
  /-- Discard the entries after a slot. -/
  | logTruncate (index : Int64)
  /-- Remove the records below a slot. -/
  | logCollect (index : Int64)
  | metaShow
  | dataGet (name key : String)
  | dataPut (name key value : String)
  | dataDelete (name key : String)
  /-- List keys and values, from a key on. -/
  | dataScan (name : String) (start : Option String)
deriving DecidableEq, Repr

structure Arguments where
  config : String
  /-- The data directory, if it is given. -/
  dataDirectory : Option String
  /-- The level of logging, if it is given. -/
  level : Option String
  command : Command
deriving DecidableEq, Repr

/-- Why there is no command to run. -/
inductive Stop where
  | help
  | version
  /-- The arguments cannot be used. -/
  | misuse
deriving DecidableEq, Repr

/-! ## Options -/

/-- An option. -/
structure OptionForm where
  /-- Its name after two dashes. -/
  name : String
  /-- Its letter after one dash. -/
  letter : Option Char
  /-- Whether it takes a value. -/
  takesValue : Bool
  /-- Which values it takes. -/
  accepts : String → Bool

/-- What may stand at one level of the arguments. -/
structure Level where
  options : List OptionForm
  /-- Which texts its operands may be, in order; there are no further ones. -/
  operands : List (String → Bool)
  /-- Whether the version may be asked for. -/
  hasVersion : Bool
  /-- Whether operands may be negative numbers. -/
  takesNegative : Bool
  /-- Whether the level ends with its first operand. -/
  endsAtOperand : Bool

/-- The options and operands that were found. -/
structure Found where
  /-- The options with their values. -/
  options : List (String × String)
  operands : List String
  /-- The option that was found last, while its value waits to be looked at. -/
  waiting : Option (OptionForm × String)

namespace Found

def nothing : Found := ⟨[], [], none⟩

def value? (found : Found) (name : String) : Option String :=
  found.options.lookup name

/-- With one more operand, which the level must take. -/
def addOperand (level : Level) (found : Found) (s : String) : Except Stop Found :=
  match level.operands[found.operands.length]? with
  | some accepts =>
    if accepts s then .ok { found with operands := found.operands ++ [s] } else .error .misuse
  | none => .error .misuse

/-- With one more option, which must be new and take the value. -/
def addOption (found : Found) (form : OptionForm) (value : String) : Except Stop Found :=
  if (found.value? form.name).isNone ∧ form.accepts value then
    .ok { found with options := found.options ++ [(form.name, value)] }
  else .error .misuse

/-- With the waiting option added. -/
def settle (found : Found) : Except Stop Found :=
  match found.waiting with
  | none => .ok found
  | some (form, value) => { found with waiting := none }.addOption form value

end Found

/-- What an argument is. -/
inductive Shape where
  | operand
  /-- The mark after which all are operands. -/
  | endOfOptions
  /-- An option by name, with a value after an equals sign. -/
  | named (name : List Char) (value : Option (List Char))
  /-- An option by letter, with what follows the letter. -/
  | lettered (letter : Char) (rest : List Char)
deriving DecidableEq, Repr

/-- Splits at the first equals sign. -/
def splitEquals (cs : List Char) : List Char × Option (List Char) :=
  match cs.dropWhile (· ≠ '=') with
  | [] => (cs, none)
  | _ :: value => (cs.takeWhile (· ≠ '='), some value)

def shapeOf (level : Level) (arg : String) : Shape :=
  match arg.toList with
  | ['-', '-'] => .endOfOptions
  | '-' :: '-' :: cs => let (name, value) := splitEquals cs; .named name value
  | ['-'] => .operand
  | '-' :: c :: cs =>
    if level.takesNegative ∧ (c :: cs).all Decimal.isDigit then .operand else .lettered c cs
  | _ => .operand

/-- Whether an argument can be the value of the option before it. -/
def isValue (arg : String) : Bool :=
  match arg.toList with
  | ['-'] => true
  | '-' :: _ => false
  | _ => true

/-- The value that follows an option's letter, if one does. -/
def attachedValue (rest : List Char) : Option (List Char) :=
  match rest with
  | [] => none
  | '=' :: value => some value
  | value => some value

/-- The option that an argument names, with its attached value; or the request for help. -/
def optionOf (level : Level) : Shape → Except Stop (OptionForm × Option String)
  | .named name value =>
    if name = ['h', 'e', 'l', 'p'] ∧ value.isNone then .error .help
    else if level.hasVersion ∧ name = ['v', 'e', 'r', 's', 'i', 'o', 'n'] ∧ value.isNone then
      .error .version
    else match level.options.find? (fun form => form.name.toList = name) with
      | some form => .ok (form, value.map String.ofList)
      | none => .error .misuse
  | .lettered letter rest =>
    if letter = 'h' then .error .help
    else if level.hasVersion ∧ letter = 'V' then .error .version
    else match level.options.find? (fun form => form.letter = some letter) with
      | some form => .ok (form, (attachedValue rest).map String.ofList)
      | none => .error .misuse
  | _ => .error .misuse

/-- Reads the options and operands of a level and returns them with the arguments after it. The last
    option may still wait if the level ends at an operand. -/
def readLevel (level : Level) (found : Found) : List String → Except Stop (Found × List String)
  | [] => do return (← found.settle, [])
  | arg :: args =>
    match shapeOf level arg with
    | .operand => do
      if level.endsAtOperand then return (← found.addOperand level arg, args)
      let found ← found.settle
      readLevel level (← found.addOperand level arg) args
    | .endOfOptions => do
      -- After the double dash no group or command can be named.
      if level.endsAtOperand then throw .misuse
      return (← args.foldlM (Found.addOperand level) (← found.settle), [])
    | shape => do
      let found ← found.settle
      let (form, attached) ← optionOf level shape
      match form.takesValue, attached, args with
      | true, some value, args => readLevel level (← found.addOption form value) args
      | true, none, value :: args =>
        if isValue value then readLevel level { found with waiting := some (form, value) } args
        else throw .misuse
      | true, none, [] => throw .misuse
      | false, none, args => readLevel level (← found.addOption form "") args
      | false, some _, _ => throw .misuse

/-! ## Levels -/

def anyText (_ : String) : Bool := true

/-- A text that names something. -/
def nonEmptyText (s : String) : Bool := s ≠ ""

def signedText (s : String) : Bool := (Decimal.int64? s).isSome

def unsignedText (s : String) : Bool := (Decimal.uint64? s).isSome

/-- The options before the group. -/
def topLevel : Level where
  options :=
    [⟨"config", some 'c', true, nonEmptyText⟩, ⟨"data-dir", none, true, nonEmptyText⟩,
      ⟨"log-level", none, true, anyText⟩]
  operands := [anyText]
  hasVersion := true
  takesNegative := false
  endsAtOperand := true

/-- Between a group and its command. -/
def groupLevel : Level where
  options := []
  operands := [anyText]
  hasVersion := false
  takesNegative := false
  endsAtOperand := true

/-- The options and operands of a command. -/
def commandLevel (options : List OptionForm) (operands : List (String → Bool))
    (takesNegative : Bool) : Level where
  options := options
  operands := operands
  hasVersion := false
  takesNegative := takesNegative
  endsAtOperand := false

def dumpOptions : List OptionForm :=
  [⟨"from", none, true, signedText⟩, ⟨"limit", none, true, unsignedText⟩,
    ⟨"json", none, false, anyText⟩]

def scanOptions : List OptionForm :=
  [⟨"from", none, true, anyText⟩]

/-! ## Reading -/

/-- What is required, or misuse. -/
def require {α : Type} : Option α → Except Stop α
  | some a => .ok a
  | none => .error .misuse

/-- An optional value that must be readable where it is given. -/
def readOptional {α : Type} (read : String → Option α) : Option String → Except Stop (Option α)
  | none => .ok none
  | some s => (require (read s)).map some

/-- The options and operands that are found at a command's level. -/
def readCommand (level : Level) (args : List String) : Except Stop Found := do
  let (found, _) ← readLevel level Found.nothing args
  return found

/-- The operands of a command that takes a number of texts and no options. -/
def readOperands (count : Nat) (args : List String) : Except Stop (List String) := do
  return (← readCommand (commandLevel [] (List.replicate count anyText) false) args).operands

/-- The only operand of a command, as a number. -/
def readIndex (takesNegative : Bool) (args : List String) : Except Stop Int64 := do
  match (← readCommand (commandLevel [] [signedText] takesNegative) args).operands with
  | [index] => require (Decimal.int64? index)
  | _ => throw .misuse

/-- The command of a group's and a command's name and the arguments after them. -/
def readNamed (group name : String) (args : List String) : Except Stop Command := do
  match group, name with
  | "log", "info" =>
    match ← readOperands 0 args with
    | [] => return .logInfo
    | _ => throw .misuse
  | "log", "dump" =>
    let found ← readCommand (commandLevel dumpOptions [] false) args
    let start ← readOptional Decimal.int64? (found.value? "from")
    let limit ← readOptional Decimal.uint64? (found.value? "limit")
    match found.operands with
    | [] => return .logDump (start.getD 0) limit (found.value? "json").isSome
    | _ => throw .misuse
  | "log", "truncate" => return .logTruncate (← readIndex true args)
  | "log", "gc" => return .logCollect (← readIndex false args)
  | "meta", "show" =>
    match ← readOperands 0 args with
    | [] => return .metaShow
    | _ => throw .misuse
  | "data", "get" =>
    match ← readOperands 2 args with
    | [name, key] => return .dataGet name key
    | _ => throw .misuse
  | "data", "put" =>
    match ← readOperands 3 args with
    | [name, key, value] => return .dataPut name key value
    | _ => throw .misuse
  | "data", "delete" =>
    match ← readOperands 2 args with
    | [name, key] => return .dataDelete name key
    | _ => throw .misuse
  | "data", "scan" =>
    let found ← readCommand (commandLevel scanOptions [anyText] false) args
    match found.operands with
    | [name] => return .dataScan name (found.value? "from")
    | _ => throw .misuse
  | _, _ => throw .misuse

/-- The names of the groups with the names of their commands. -/
def groups : List (String × List String) :=
  [("log", ["info", "dump", "truncate", "gc"]), ("meta", ["show"]),
    ("data", ["get", "put", "delete", "scan"])]

/-- Whether help can be asked for on these names at the top. -/
def hasTopHelp : List String → Bool
  | [] => true
  | [group] => group = "help" || (groups.lookup group).isSome
  | [group, name] => ((groups.lookup group).getD []).contains name
  | _ => false

/-- Whether help can be asked for on these names in a group. -/
def hasGroupHelp (group : String) : List String → Bool
  | [] => true
  | [name] => name = "help" || ((groups.lookup group).getD []).contains name
  | _ => false

/-- The command of a group's name and the arguments after it. -/
def readGroup (group : String) (args : List String) : Except Stop Command := do
  if (groups.lookup group).isNone then throw .misuse
  let (found, rest) ← readLevel groupLevel Found.nothing args
  match found.operands with
  | ["help"] => throw (if hasGroupHelp group rest then .help else .misuse)
  | [name] => readNamed group name rest
  | _ => throw .misuse

/-- The command of the arguments from the group on. -/
def readTail (operands rest : List String) : Except Stop Command :=
  match operands with
  | ["help"] => throw (if hasTopHelp rest then .help else .misuse)
  | [group] => readGroup group rest
  | _ => throw .misuse

def defaultConfigPath : String := "/etc/chubby/storage.toml"

/-- Reads the arguments. `environment` is the data directory of the environment, which counts where
    none is given; like a given one, it must not be empty. -/
def Arguments.read (args : List String) (environment : Option String) : Except Stop Arguments := do
  let (found, rest) ← readLevel topLevel Found.nothing args
  let command ← readTail found.operands rest
  let found ← found.settle
  let dataDirectory := (found.value? "data-dir").or environment
  if dataDirectory = some "" then throw .misuse
  return {
    config := (found.value? "config").getD defaultConfigPath
    dataDirectory
    level := found.value? "log-level"
    command }

end ReplicaStore.CommandLine
