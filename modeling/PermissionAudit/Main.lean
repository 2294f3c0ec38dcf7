import PermissionAudit.Application.Scan

/-!
The command line tool. The files that a scan may look at are taken from the file
system, the scan is run on them, and what it changed is written back.
-/

namespace PermissionAudit.CommandLine

/-- Exit status after a failed scan. -/
def failed : UInt32 := 1

/-- Exit status after a wrong command line. -/
def misused : UInt32 := 2

def version : String := "0.3.0"

def usage : String :=
  "Usage: permission-audit [OPTIONS] <BINARY> <PERMISSIONS>\n\n" ++
  "  -d, --debug                   Activate debug mode\n" ++
  "  -v, --verbose                 Activate verbose mode\n" ++
  "  -e, --ecslog                  Output logs in ECS format\n" ++
  "  -o, --output <output>         Output directory\n" ++
  "      --filter-class <regex>    Class(es) regex filter\n" ++
  "      --filter-method <regex>   Method(s) regex filter\n" ++
  "      --no-cfg                  Do not write per-method CFG files\n" ++
  "      --distinct-nodes          One CFG node per instruction\n" ++
  "      --include-framework       Also analyze platform packages\n" ++
  "      --callgraph <FILE>        Write the call graph as a dot file\n" ++
  "  -h, --help                    Print help\n" ++
  "  -V, --version                 Print version\n"

def faultText : UsageFault → String
  | .missingArgument => "a required argument was not provided"
  | .unknownArgument => "unexpected argument found"
  | .missingValue => "a value is required"
  | .repeated => "an argument cannot be used multiple times"
  | .superfluousValue => "unexpected value found"
  | .helpRequested => usage
  | .versionRequested => version

/-- Records that are shown. -/
def shownLevel (args : Arguments) : Level :=
  if args.verbose then .trace else if args.debug then .debug else .info

def red (text : String) : String := "\x1b[31m" ++ text ++ "\x1b[0m"

/-- Puts a file or directory that exists into a file system, under directories of its own. -/
def mount (files : FileSystem) (path : String) (node : FileNode) : FileSystem :=
  let p := FilePath.ofString path
  match node with
  | .directory => (files.makeDirectories p).2
  | .file contents =>
    let files := match p.parent? with
      | some parent => (files.makeDirectories parent).2
      | none => files
    match files.write path contents with
    | .ok files => files
    | .error _ => files

/-- What is at a path, if it can be read. -/
def fetch (path : String) : IO (Option FileNode) := do
  let here := (← IO.currentDir) / path
  if ← here.isDir then
    return some .directory
  else
    try
      return some (.file (← IO.FS.readBinFile here).toList)
    catch _ =>
      return none

/-- Adds what is at a path. -/
def take (files : FileSystem) (path : String) : IO FileSystem := do
  match ← fetch path with
  | some node => return mount files path node
  | none => return files

/-- The files that a scan may look at: its inputs, and what is where it writes. -/
def gather (args : Arguments) : IO FileSystem := do
  let current ← IO.currentDir
  let mut files := FileSystem.empty (FilePath.ofString current.toString).parts
  files ← take files args.output
  let output := current / args.output
  if ← output.isDir then
    for entry in ← output.readDir do
      files ← take files (FilePath.join args.output entry.fileName)
  if let some path := args.callGraph then
    if let some parent := (FilePath.ofString path).parent? then
      let directory := Fields.join "/" ((if parent.absolute then [""] else []) ++ parent.parts)
      if !directory.isEmpty then
        files ← take files directory
    files ← take files path
  files ← take files args.permissions
  take files args.binary

/-- Writes back what a scan changed. -/
def apply (before after : FileSystem) : IO Unit := do
  for (here, node) in after.nodes do
    if before.node? here ≠ some node then
      let path := "/" ++ Fields.join "/" here
      match node with
      | .directory => IO.FS.createDirAll path
      | .file contents => IO.FS.writeBinFile path ⟨contents.toArray⟩

def run (args : Arguments) : IO UInt32 := do
  let files ← gather args
  let ⟨(result, world), records⟩ := scan args files
  for record in LogRecord.upTo (shownLevel args) records do
    IO.eprintln record.line
  apply files world.files
  for line in world.printed do
    IO.println line
  match result with
  | .ok () => return 0
  | .error e =>
    IO.eprintln (red ("Error: " ++ e.message))
    return failed

/-- Runs the tool. -/
def start (args : List String) : IO UInt32 := do
  match Arguments.parse args with
  | .ok args => run args
  | .error fault =>
    match fault with
    | .helpRequested | .versionRequested =>
      IO.println (faultText fault)
      return 0
    | _ =>
      IO.eprintln (red ("error: " ++ faultText fault))
      return misused

end PermissionAudit.CommandLine

def main (args : List String) : IO UInt32 :=
  PermissionAudit.CommandLine.start args
