import ReplicaStore.Config.Basic
import ReplicaStore.Disk.Basic
import ReplicaStore.Toml.Document

/-! # Reading a configuration

    A configuration is a document of tables whose entries have fixed names. An entry that is missing
    has its default, and unknown ones are ignored. A group of settings may also be a list of its
    values in order, of which the last ones may be missing; values beyond the group's are
    ignored. -/

namespace ReplicaStore.Config

open Toml (Value Entries)

/-! ## Single settings -/

def boolean? : Value → Option Bool
  | .boolean b => some b
  | _ => none

/-- A size: a whole number that is not negative. -/
def size? : Value → Option Nat
  | .integer z => if 0 ≤ z then some z.toNat else none
  | _ => none

def text? : Value → Option String
  | .string s => some s
  | _ => none

/-! ## Groups of settings -/

/-- The values of a group whose settings have the given names, in the order of the names; `none`
    where the group does not say. A date is taken for a group without known settings. -/
def settings? (names : List String) : Value → Option (List (Option Value))
  | .table _ entries => some (names.map fun name => entries.lookup name)
  | .array items => some (names.mapIdx fun i _ => items[i]?)
  | .tables items => some (names.mapIdx fun i _ => items[i]?.map (Value.table .header))
  | .moment => some (names.map fun _ => none)
  | _ => none

/-- The value of a setting: its default where the group does not say. -/
def orDefault {α : Type} (fallback : α) (read : Value → Option α) : Option Value → Option α
  | none => some fallback
  | some v => read v

/-- The tuning of the log's engine. -/
def engineOptions? (v : Value) : Option EngineOptions := do
  match ← settings? ["compress", "block_size", "write_buffer_size"] v with
  | [compress, blockSize, writeBufferSize] =>
    let fallback := EngineOptions.default
    return ⟨← orDefault fallback.compress boolean? compress,
      ← orDefault fallback.blockSize size? blockSize,
      ← orDefault fallback.writeBufferSize size? writeBufferSize⟩
  | _ => none

/-- The tuning of the namespaces' engines. -/
def dataOptions? (v : Value) : Option DataOptions := do
  match ← settings? ["compress", "block_size_kb", "write_buffer_size_mb"] v with
  | [compress, blockSizeKb, writeBufferSizeMb] =>
    let fallback := DataOptions.default
    return ⟨← orDefault fallback.compress boolean? compress,
      ← orDefault fallback.blockSizeKb size? blockSizeKb,
      ← orDefault fallback.writeBufferSizeMb size? writeBufferSizeMb⟩
  | _ => none

/-- The settings of the storage: data directory and both tunings. -/
def storage? (v : Value) : Option (String × EngineOptions × DataOptions) := do
  match ← settings? ["data_dir", "log", "data"] v with
  | [dataDirectory, log, data] =>
    return (← orDefault default.dataDirectory text? dataDirectory,
      ← orDefault default.log engineOptions? log, ← orDefault default.data dataOptions? data)
  | _ => none

/-- The settings of logging. -/
def level? (v : Value) : Option String := do
  match ← settings? ["level"] v with
  | [level] => orDefault default.level text? level
  | _ => none

/-- The settings of a document. -/
def ofEntries? (entries : Entries) : Option Config := do
  let fallback := (default.dataDirectory, default.log, default.data)
  let (dataDirectory, log, data) ← orDefault fallback storage? (entries.lookup "storage")
  let level ← orDefault default.level level? (entries.lookup "logging")
  return ⟨dataDirectory, log, data, level⟩

/-! ## Whole configurations -/

/-- The configuration of a text, if it can be used. -/
def parse (text : String) : Except ConfigError Config := do
  match (Toml.document? text).bind ofEntries? with
  | none => throw .malformed
  | some c =>
    c.validate
    return c

def load (d : Disk) (path : String) : Except ConfigError Config := do
  parse (← (d.readText path).mapError (.unreadable path))

end ReplicaStore.Config
