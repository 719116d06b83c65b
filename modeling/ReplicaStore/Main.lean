import ReplicaStore.CommandLine.Footprint
import ReplicaStore.Engine.Image

/-! # The command line tool

    Fetches what a run touches from the real disk, performs the run, brings back what changed, and
    prints. Everything that a run decides is decided by `CommandLine.run`. -/

namespace ReplicaStore.CommandLine

def realPath (loc : Location) : String :=
  "/" ++ String.intercalate "/" loc

/-- The node of the bytes found at a location. -/
def nodeOf (loc : Location) (identity : Nat) (data : Bytes) : Node :=
  match loc.getLast? == some Host.engineFileName, Contents.ofImage? data with
  | true, some contents => .engine contents
  | _, _ => .file identity data

/-- The code of the operating system for reading a directory as a file. -/
def directoryCode : UInt32 := 21

/-- What stands at a location of the real disk. -/
def fetchNode (loc : Location) (identity : Nat) : IO (Option Node) := do
  match ← (IO.FS.readBinFile (realPath loc)).toBaseIO with
  | .ok data => return some (nodeOf loc identity data.toList)
  | .error (.inappropriateType _ code _) =>
    return if code = directoryCode then some .directory else none
  | .error _ => return none

/-- The disk with what stands on the way of a path. -/
def fetch (d : Disk) (path : String) : IO Disk := do
  let mut d := d
  for loc in locationsOf d path do
    if (d.node? loc).isNone then
      if let some node ← fetchNode loc d.nextIdentity then
        d := { d.put loc node with nextIdentity := d.nextIdentity + 1 }
  return d

/-- The disk as far as a run touches it. -/
def fetchFor (args : Arguments) (d : Disk) : IO Disk := do
  let d ← fetch d args.config
  let d ← (dataDirectories args d).foldlM fetch d
  (footprint args d).foldlM fetch d

/-- The bytes that a node keeps on the real disk; a directory keeps none. -/
def imageOf : Node → Option Bytes
  | .directory => none
  | .file _ data => some data
  | .engine contents => some contents.image

/-- Brings what changed back to the real disk: first directories, then files. -/
def bringBack (before after : Disk) : IO Unit := do
  for ((_, loc), node) in after.nodes do
    if (imageOf node).isNone ∧ (before.node? loc).isNone then
      IO.FS.createDirAll (realPath loc)
  for ((_, loc), node) in after.nodes do
    if let some data := imageOf node then
      if (before.node? loc).bind imageOf ≠ some data then
        IO.FS.writeBinFile (realPath loc) data.toByteArray

/-- Runs the tool with arguments and the environment of the process, and returns the exit code. -/
def runProcess (args : List String) : IO UInt32 := do
  let environment ← IO.getEnv "CHUBBY_DATA_DIR"
  let workingDirectory := Path.names ((← IO.getEnv "PWD").getD "/")
  let disk := Disk.empty workingDirectory
  let disk ← match Arguments.read args environment with
    | .ok read => fetchFor read disk
    | .error _ => pure disk
  let (outcome, host) := run args environment (Host.ofDisk disk)
  bringBack disk host.disk
  IO.print outcome.stdout
  IO.eprint outcome.stderr
  return outcome.exit.toUInt32

end ReplicaStore.CommandLine

def main (args : List String) : IO UInt32 :=
  ReplicaStore.CommandLine.runProcess args
