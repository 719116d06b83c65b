import ReplicaStore.Disk.Path
import ReplicaStore.Error

/-! # Configuration

    The settings of a replica: where its data is and how its engines are tuned. Every setting has a
    default; sizes must not be zero and the data directory must have a name. -/

namespace ReplicaStore

/-! ## Settings -/

/-- The tuning of an engine, with sizes in bytes. What an engine answers never depends on it. -/
structure EngineOptions where
  compress : Bool
  blockSize : Nat
  writeBufferSize : Nat
deriving DecidableEq, Repr

/-- The tuning of the namespaces' engines, with sizes in larger units. -/
structure DataOptions where
  compress : Bool
  /-- The size of a block, in units of 1024 bytes. -/
  blockSizeKb : Nat
  /-- The size of the write buffer, in units of 1024 times 1024 bytes. -/
  writeBufferSizeMb : Nat
deriving DecidableEq, Repr

/-- The settings of a replica. -/
structure Config where
  /-- The directory of all data. -/
  dataDirectory : String
  /-- The tuning of the log's engine. -/
  log : EngineOptions
  /-- The tuning of the namespaces' engines. -/
  data : DataOptions
  /-- How much is logged. -/
  level : String
deriving DecidableEq, Repr

/-- The default tuning of the log's engine. -/
def EngineOptions.default : EngineOptions := ⟨false, 32748, 32 * 1024 * 1024⟩

/-- The default tuning of the namespaces' engines. -/
def DataOptions.default : DataOptions := ⟨true, 4, 4⟩

/-- The tuning in bytes. -/
def DataOptions.engineOptions (o : DataOptions) : EngineOptions :=
  ⟨o.compress, o.blockSizeKb * 1024, o.writeBufferSizeMb * 1024 * 1024⟩

namespace Config

def default : Config := ⟨"./chubby-data", .default, .default, "info"⟩

instance : Inhabited Config := ⟨default⟩

/-! ## Layout -/

def metadataDirectoryName : String := "meta"

def databaseDirectoryName : String := "data"

/-- The directory that the log's directory is in. -/
def logPath (c : Config) : String := c.dataDirectory

def metadataPath (c : Config) : String := Path.join c.dataDirectory metadataDirectoryName

def databasePath (c : Config) : String := Path.join c.dataDirectory databaseDirectoryName

/-! ## Checks -/

/-- Refuses settings that engines cannot work with. -/
def validate (c : Config) : Except ConfigError Unit :=
  if c.log.blockSize = 0 ∨ c.log.writeBufferSize = 0 then .error .zeroLogSize
  else if c.data.blockSizeKb = 0 ∨ c.data.writeBufferSizeMb = 0 then .error .zeroDataSize
  else if c.dataDirectory = "" then .error .noDataDirectory
  else .ok ()

theorem validate_default : default.validate = .ok () := by
  simp [validate, default, EngineOptions.default, DataOptions.default]

theorem validate_eq_ok_iff {c : Config} :
    c.validate = .ok () ↔
      c.log.blockSize ≠ 0 ∧ c.log.writeBufferSize ≠ 0 ∧ c.data.blockSizeKb ≠ 0 ∧
        c.data.writeBufferSizeMb ≠ 0 ∧ c.dataDirectory ≠ "" := by
  grind [validate]

end Config

end ReplicaStore
