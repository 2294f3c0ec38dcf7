import PermissionAudit.Application.Arguments
import PermissionAudit.Application.Input
import PermissionAudit.Detection.Filter
import PermissionAudit.Registry.Body

/-!
A scan: reads the permission table and the application, runs the detection, and
writes flow graphs, the call graph and the usage report. Until the output
directory is made nothing is written, and from then on nothing makes it fail.
-/

namespace PermissionAudit

/-- What a scan can change. -/
structure World where
  files : FileSystem
  /-- Lines that have been printed. -/
  printed : List String := []

/-- A step of a scan. Changes made before a failure stay. -/
abbrev Scan (α : Type) := ExceptT ScanError (StateT World Logged) α

/-- The graphs of methods as files of a directory. -/
def GraphSink.directory (path : String) : GraphSink FileSystem where
  write name document files := do
    let path := FilePath.join path name
    if files.contains path then
      Logged.debug ("overwriting " ++ path)
    match files.write path (Utf8.encode document) with
    | .ok files => return (.ok (), files)
    | .error fault => return (.error (.write path fault), files)

namespace Scan

def log (m : Logged Unit) : Scan Unit := liftM m

def print (line : String) : Scan Unit :=
  modify fun w => { w with printed := w.printed ++ [line] }

/-- The files as they are. -/
def files : Scan FileSystem := do return (← get).files

def setFiles (files : FileSystem) : Scan Unit := modify fun w => { w with files }

/-- Runs an attempt, which changes nothing. -/
def attempt {α : Type} (a : Attempt ScanError α) : Scan α := do
  match ← (liftM a.run : Scan (Except ScanError α)) with
  | .ok a => return a
  | .error e => throw e

/-- Runs an attempt at an analysis. -/
def attemptAnalysis {α : Type} (a : Logged (Except AnalysisError α)) : Scan α :=
  attempt (ExceptT.mk ((·.mapError .analysis) <$> a))

def requireFile (kind : InputKind) (path : String) : Scan Unit := do
  if !(← files).isFile path then
    throw (.notAFile kind path)

/-- A filter as it is logged. -/
def filterText (filter : Option String) : String :=
  match filter with
  | some text => "Some(Regex(" ++ Quoted.quote text ++ "))"
  | none => "None"

def readSelection (args : Arguments) : Scan Selection := do
  match readFilter args.classFilter with
  | .error fault => throw (.filter fault)
  | .ok classFilter =>
    match readFilter args.methodFilter with
    | .error fault => throw (.filter fault)
    | .ok methodFilter =>
      log (Logged.debug ("filtering on class pattern " ++ filterText args.classFilter ++
        ", method pattern " ++ filterText args.methodFilter))
      return .ofPatterns classFilter methodFilter

/-- How many permissions are shown. -/
def sampleSize : Nat := 4

def readTable (path : String) : Scan PermissionIndex := do
  print ("Loading sensitive APIs from: " ++ path)
  match (← files).read path with
  | .error fault => throw (.analysis (.file fault))
  | .ok contents =>
    let index ← attemptAnalysis (PermissionIndex.read contents)
    print ("Loaded " ++ toString index.permissions.length ++ " permissions with " ++
      toString index.size ++ " sensitive APIs.")
    for permission in index.permissions.take sampleSize do
      print ("Permission: " ++ permission ++ " has " ++
        toString (index.apis permission).length ++ " APIs")
    for permission in index.permissions do
      log (Logged.trace (permission ++ ": " ++ Fields.join ", " (index.apis permission)))
    return index

def readProgram (args : Arguments) : Scan Program := do
  let input ← attempt (Input.load (← files) args.binary)
  let exclusions := if args.includeFramework then [] else platformPackages
  let registry ← (liftM (Registry.ofDexs input.dexs exclusions) : Scan Registry)
  log (Logged.info (toString input.dexs.length ++ " dex file(s), " ++
    toString registry.classCount ++ " application classes, " ++
    toString registry.methodCount ++ " methods"))
  return registry.toProgram

def makeOutput (path : String) : Scan Unit := do
  let (made, files) := (← files).makeDirectories (.ofString path)
  setFiles files
  match made with
  | .ok () => return ()
  | .error fault => throw (.file fault)

/-- How the detection is to run. -/
def config (args : Arguments) (index : PermissionIndex) (selection : Selection) :
    Detection.Config FileSystem where
  index
  selection
  keying := if args.distinctNodes then .instruction else .label
  sink? := if args.noFlowGraphs then none else some (.directory args.output)

def detect (args : Arguments) (program : Program) (index : PermissionIndex)
    (selection : Selection) : Scan Detection.Outcome := do
  print "Analyzing the application..."
  let (result, files) ←
    (liftM (Detection.run program (config args index selection) (← files)) :
      Scan (Except AnalysisError Detection.Outcome × FileSystem))
  setFiles files
  match result with
  | .error e => throw (.analysis e)
  | .ok outcome =>
    let tally := outcome.stats.tally
    print ("Processed " ++ toString tally.classes ++ " classes, " ++ toString tally.methods ++
      " methods, analyzed " ++ toString tally.analyzed ++ " method bodies.")
    if 0 < tally.phantomClasses then
      log (Logged.info (toString tally.phantomClasses ++ " phantom classes skipped"))
    if 0 < outcome.stats.writeFailures then
      log (Logged.warn (toString outcome.stats.writeFailures ++
        " CFG files could not be written"))
    return outcome

def writeCallGraph (args : Arguments) (graph : Option CallGraph) : Scan Unit := do
  match args.callGraph, graph with
  | none, _ => return ()
  | some _, none => log (Logged.warn "no call graph to write")
  | some path, some graph =>
    match (← files).write path (Utf8.encode graph.dot) with
    | .ok files =>
      setFiles files
      log (Logged.info ("call graph written in " ++ Quoted.quote path))
    | .error fault =>
      log (Logged.error ("cannot write call graph in " ++ Quoted.quote path ++ ": " ++
        fault.message))

/-- Text in green on terminals. -/
def green (text : String) : String := "\x1b[32m" ++ text ++ "\x1b[0m"

def writeReport (args : Arguments) (usage : UsageReport) : Scan Unit := do
  print "Generating output files..."
  let path := FilePath.join args.output FileName.usage
  match (← files).write path (Utf8.encode usage.text) with
  | .error fault =>
    log (Logged.error ("Error writing output file: " ++
      (AnalysisError.write path fault).message))
  | .ok files =>
    setFiles files
    if usage.isEmpty then
      print "No sensitive API calls were detected in the application."
    else
      print (green ("Found " ++ toString usage.size ++ " unique sensitive APIs with a total of " ++
        toString usage.totalCalls ++ " calls. Results written to " ++ path))

/-- The part of a scan that changes no file. -/
def prepare (args : Arguments) : Scan (PermissionIndex × Selection × Program) := do
  requireFile .binary args.binary
  requireFile .permissionTable args.permissions
  let selection ← readSelection args
  print ("Starting analysis of: " ++ args.binary)
  let index ← readTable args.permissions
  let program ← readProgram args
  return (index, selection, program)

/-- The part of a scan that writes its results. -/
def finish (args : Arguments) (index : PermissionIndex) (selection : Selection)
    (program : Program) : Scan Unit := do
  let outcome ← detect args program index selection
  writeCallGraph args outcome.callGraph
  writeReport args outcome.usage

/-- All steps of a scan. -/
def perform (args : Arguments) : Scan Unit := do
  let (index, selection, program) ← prepare args
  makeOutput args.output
  finish args index selection program

end Scan

/-- Runs a scan on files. -/
def scan (args : Arguments) (files : FileSystem) : Logged (Except ScanError Unit × World) :=
  (ExceptT.run (Scan.perform args)).run { files }

end PermissionAudit
