import ReplicaStore.CommandLine.Run

/-! # What a run touches

    A run looks at its configuration file, its data directory, and the files of what its command
    opens. So it is enough to fetch those from a real disk before the run, and to bring back what
    changed. -/

namespace ReplicaStore.CommandLine

def engineFile (directory : String) : String :=
  Path.join directory Host.engineFileName

/-- The engine files of the default namespace and of another one. -/
def namespaceFiles (c : Config) (name : String) : List String :=
  [Database.defaultNamespace, name].map fun name =>
    engineFile (Database.directoryOf c.databasePath name)

/-- The files that a command works on. -/
def filesOf (c : Config) : Command → List String
  | .logInfo | .logDump _ _ _ | .logTruncate _ | .logCollect _ =>
    [engineFile (Path.join c.logPath LogHandle.directoryName)]
  | .metaShow =>
    [Metadata.termFileName, Metadata.voteFileName, Metadata.rootFileName].map
      (Path.join c.metadataPath)
  | .dataGet name _ | .dataPut name _ _ | .dataDelete name _ | .dataScan name _ =>
    namespaceFiles c name

/-- The paths that a run works on, on a disk that shows its configuration file and its data
    directory. -/
def footprint (args : Arguments) (d : Disk) : List String :=
  match configOf args d with
  | .ok c => filesOf c args.command
  | .error _ => []

/-- The data directories that a run may use, on a disk that shows its configuration file. -/
def dataDirectories (args : Arguments) (d : Disk) : List String :=
  match args.dataDirectory, Config.load d args.config with
  | some directory, _ => [directory]
  | none, .ok c => [c.dataDirectory]
  | none, .error _ => [Config.default.dataDirectory]

/-- The locations on the way of names from a location. -/
def visited (loc : Location) : List String → List Location
  | [] => [loc]
  | name :: names => loc :: visited (Path.step loc name) names

def locationsOf (d : Disk) (path : String) : List Location :=
  visited (d.start path) (Path.names path)

end ReplicaStore.CommandLine
