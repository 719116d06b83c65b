import ReplicaStore.Disk.OsError
import ReplicaStore.Engine.Fault
import ReplicaStore.Log.Record
import ReplicaStore.Log.SlotKey
import ReplicaStore.Metadata.Payload
import ReplicaStore.RecordFile.Frame

/-! # Errors

    Every failure of the store is a cause. Causes fall into categories, each with a heading that
    starts its message, and categories into the few kinds that a caller can tell apart. -/

namespace ReplicaStore

/-! ## Kinds and categories -/

/-- The kinds of error that a caller can tell apart. -/
inductive ErrorKind where
  /-- A namespace, a key or a fact is absent. -/
  | notFound
  /-- What may exist only once exists already. -/
  | alreadyExists
  /-- The caller passed something that cannot be used. -/
  | invalidArgument
  /-- The engine or the operating system failed. -/
  | internal
  /-- Something stored is damaged. -/
  | dataLoss
deriving DecidableEq, Repr

def ErrorKind.name : ErrorKind → String
  | .notFound => "NotFound"
  | .alreadyExists => "AlreadyExists"
  | .invalidArgument => "InvalidArgument"
  | .internal => "Internal"
  | .dataLoss => "DataLoss"

/-- The categories of error, by heading. -/
inductive ErrorCategory where
  | notFound
  | alreadyExists
  | invalidArgument
  | internal
  | dataLoss
  | io
  | configuration
deriving DecidableEq, Repr

namespace ErrorCategory

/-- What a message of the category starts with. -/
def heading : ErrorCategory → String
  | .notFound => "not found: "
  | .alreadyExists => "already exists: "
  | .invalidArgument => "invalid argument: "
  | .internal => "internal error: "
  | .dataLoss => "data loss: "
  | .io => "I/O error: "
  | .configuration => "configuration error: "

def kind : ErrorCategory → ErrorKind
  | .notFound => .notFound
  | .alreadyExists => .alreadyExists
  | .invalidArgument => .invalidArgument
  | .internal => .internal
  | .dataLoss => .dataLoss
  | .io => .internal
  | .configuration => .invalidArgument

end ErrorCategory

/-! ## Causes -/

/-- Why a configuration cannot be used. -/
inductive ConfigError where
  | unreadable (path : String) (e : OsError)
  /-- The text is no configuration. -/
  | malformed
  /-- A size of the log's engine is zero. -/
  | zeroLogSize
  /-- A size of the namespaces' engines is zero. -/
  | zeroDataSize
  /-- The data directory has no name. -/
  | noDataDirectory
deriving DecidableEq, Repr

def ConfigError.message : ConfigError → String
  | .unreadable path e => s!"failed to read {path}: {e.message}"
  | .malformed => "TOML parse error"
  | .zeroLogSize => "storage.log block_size and write_buffer_size must be non-zero"
  | .zeroDataSize => "storage.data block_size_kb and write_buffer_size_mb must be non-zero"
  | .noDataDirectory => "storage.data_dir is empty"

/-- Why an operation of the store failed. -/
inductive Error where
  /-- A failure in the words of who reports it. -/
  | stated (category : ErrorCategory) (text : String)
  | io (e : OsError)
  | engine (e : EngineError)
  /-- A slot below zero. -/
  | negativeSlot (index : Int)
  /-- The last slot, which must stay. -/
  | lastSlot (index : Int)
  /-- A cut beyond the end of the log. -/
  | cutBeyondEnd (index : Int) (length : Nat)
  /-- The slot that a cut would make the last one has no record. -/
  | missingSlot (slot : Nat)
  /-- The last slot of a log of this length has no record. -/
  | missingTail (length : Nat)
  /-- The length record is no UTF-8. -/
  | lengthNotText (fault : Utf8.Error)
  /-- The length record is no slot key. -/
  | slotKey (fault : SlotKey.Error)
  /-- The length is more than a log can have. -/
  | lengthOutOfRange (length : Nat)
  | record (fault : Record.Error)
  /-- An entry is too large for a record. -/
  | oversize (fault : Record.Oversize)
  /-- A term below the current one. -/
  | staleTerm (term current : Int64)
  /-- Another server has the vote of the term. -/
  | alreadyVoted (server : String) (term : Int64)
  | rootPresent
  | rootAbsent
  /-- A payload of a record file holds no record. -/
  | malformedPayload (path : String) (fault : Payload.Error)
  /-- A record file is damaged. -/
  | damagedFile (path : String) (offset : Nat) (damage : Frame.Damage)
  /-- A record file cannot be opened. -/
  | cannotOpen (path : String) (e : OsError)
  /-- A payload is too large for a frame. -/
  | payloadTooLarge
  /-- A name that no namespace can have. -/
  | invalidNamespace (name : String)
  /-- A namespace that is not open. -/
  | closedNamespace (name : String)
  /-- A key that a namespace does not hold. -/
  | missingKey (key : Bytes) (name : String)
  | config (e : ConfigError)
deriving DecidableEq, Repr

namespace Error

def category : Error → ErrorCategory
  | .stated category _ => category
  | .io _ => .io
  | .engine _ | .cannotOpen _ _ => .internal
  | .negativeSlot _ | .lastSlot _ | .cutBeyondEnd _ _ | .oversize _ | .staleTerm _ _
  | .payloadTooLarge | .invalidNamespace _ => .invalidArgument
  | .missingSlot _ | .missingTail _ | .lengthNotText _ | .slotKey _ | .lengthOutOfRange _
  | .record _ | .malformedPayload _ _ | .damagedFile _ _ _ => .dataLoss
  | .alreadyVoted _ _ | .rootPresent => .alreadyExists
  | .rootAbsent | .closedNamespace _ | .missingKey _ _ => .notFound
  | .config _ => .configuration

/-- The wording of an error's cause. -/
def cause : Error → String
  | .stated _ text => text
  | .io e => e.message
  | .engine e => e.message
  | .negativeSlot index => s!"negative slot index {index}"
  | .lastSlot index => s!"slot {index} is the last slot of the log"
  | .cutBeyondEnd index length => s!"cannot truncate to index {index}: log length is {length}"
  | .missingSlot slot => s!"slot {slot} is missing"
  | .missingTail length => s!"log length is {length} but slot {length - 1} is missing"
  | .lengthNotText fault => s!"log length record is not UTF-8: {fault.message}"
  | .slotKey fault => fault.message
  | .lengthOutOfRange length => s!"log length {length} out of range"
  | .record fault => fault.message
  | .oversize fault => fault.message
  | .staleTerm term current => s!"term {term.toInt} is older than current term {current.toInt}"
  | .alreadyVoted server term => s!"already voted for '{server}' in term {term.toInt}"
  | .rootPresent => "root info already written"
  | .rootAbsent => "root info has not been written"
  | .malformedPayload path fault => s!"malformed record in {path}: {fault.message}"
  | .damagedFile path offset damage => s!"{damage.message} at offset {offset} of {path}"
  | .cannotOpen path e => s!"failed to open {path}: {e.message}"
  | .payloadTooLarge => "metadata record too large"
  | .invalidNamespace name => s!"invalid namespace name '{name}'"
  | .closedNamespace name => s!"namespace '{name}' is not open"
  | .missingKey key name =>
    let shown := Utf8.lossyText key
    s!"key '{shown}' not found in namespace '{name}'"
  | .config e => e.message

/-- The message of an error: the heading of its category and its cause. -/
def message (e : Error) : String :=
  e.category.heading ++ e.cause

def kind (e : Error) : ErrorKind :=
  e.category.kind

/-- Whether what was asked for is absent. -/
def isNotFound (e : Error) : Bool :=
  e.kind = .notFound

/-- Whether the caller may try again: only the engine and the operating system may do better
    later. -/
def isRetryable (e : Error) : Bool :=
  e.kind = .internal

end Error

end ReplicaStore
