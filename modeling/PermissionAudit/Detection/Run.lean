import PermissionAudit.Detection.Classify
import PermissionAudit.Program
import PermissionAudit.Program.FlowGraph
import PermissionAudit.Usage.FileName

/-!
Detection over a whole program: class by class and method by method, the flow
graph of each body is written and its guarded calls are recorded. Only a program
whose classes cannot be listed makes it fail.
-/

namespace PermissionAudit

/-- Names of the classes and methods to look at. -/
structure Selection where
  selectsClass : String → Bool
  selectsMethod : String → Bool

/-- Everything is selected. -/
def Selection.all : Selection := ⟨fun _ => true, fun _ => true⟩

/-- Where flow graphs go: a file name and a document change a state of type `σ`. -/
structure GraphSink (σ : Type) where
  write : String → String → σ → Logged (Except AnalysisError Unit × σ)

namespace Detection

structure Config (σ : Type) where
  index : PermissionIndex
  selection : Selection
  keying : NodeKeying
  /-- Without a sink no graph is written. -/
  sink? : Option (GraphSink σ)

/-- Counts of what a run met. -/
structure Tally where
  /-- Selected classes that are not phantom. -/
  classes : Nat := 0
  phantomClasses : Nat := 0
  /-- Selected methods of these classes. -/
  methods : Nat := 0
  /-- Methods whose body was at hand. -/
  analyzed : Nat := 0
  skippedBodies : Nat := 0
deriving DecidableEq

/-- What has been found so far. -/
structure Findings where
  tally : Tally := {}
  ledger : UsageLedger := .empty
  /-- Guarded calls that were met, without repetition. -/
  apis : List String := []
deriving DecidableEq

/-- The state of a run. -/
structure Progress (σ : Type) where
  findings : Findings
  writeFailures : Nat
  sink : σ

structure Stats where
  tally : Tally
  writeFailures : Nat
  /-- The number of guarded calls by class and method. -/
  sensitiveApis : Nat
deriving DecidableEq

structure Outcome where
  usage : UsageReport
  stats : Stats
  callGraph : Option CallGraph

/-- Takes up a call site. -/
def Findings.add (index : PermissionIndex) (f : Findings) (site : CallSite) : Logged Findings := do
  let known := site.api ∈ f.apis
  if !known then
    Logged.debug (site.api ++ " requires " ++ Fields.join ", " (index.permissionsOf site.api))
  let (_, ledger) ← f.ledger.recordLogged site
  return { f with ledger, apis := if known then f.apis else site.api :: f.apis }

/-- Takes up an instruction of a method. -/
def Findings.scanInstr (index : PermissionIndex) (m : MethodInfo) (f : Findings)
    (instr : BodyInstr) : Logged Findings := do
  match ← instr.classify m index with
  | some site => f.add index site
  | none => return f

/-- Hands the flow graph of a method to the sink; a failure is logged and counted. -/
def writeGraph {σ : Type} (sink? : Option (GraphSink σ)) (c : ClassInfo) (m : MethodInfo)
    (graph : FlowGraph) (p : Progress σ) : Logged (Progress σ) := do
  match sink? with
  | none => return p
  | some sink =>
    let name := FileName.flowGraph c.simpleName m.name
    let (written, state) ← sink.write name (graph.dot name) p.sink
    match written with
    | .ok () => return { p with sink := state }
    | .error e =>
      Logged.warn ("Error generating CFG for method " ++ m.callerId ++ ": " ++ e.message)
      return { p with sink := state, writeFailures := p.writeFailures + 1 }

/-- Logs that a body is missing: a warning where code was announced. -/
def logMissingBody (m : MethodInfo) (e : AnalysisError) : Logged Unit :=
  if m.hasBody then
    Logged.warn ("cannot retrieve body of " ++ m.callerId ++ ": " ++ e.message)
  else
    Logged.debug ("no body for " ++ m.callerId ++ ": " ++ e.message)

/-- Analyses the body of a method. -/
def scanBody {σ : Type} (config : Config σ) (c : ClassInfo) (m : MethodInfo) (body : Body)
    (p : Progress σ) : Logged (Progress σ) := do
  let graph ← FlowGraph.build body config.keying
  Logged.trace (m.callerId ++ ": " ++ toString graph.labels.length ++ " nodes, " ++
    toString graph.edges.length ++ " edges")
  let p ← writeGraph config.sink? c m graph p
  let findings ← body.instrs.foldlM (Findings.scanInstr config.index m) p.findings
  return { p with findings }

/-- Counts a method. -/
def Progress.count {σ : Type} (p : Progress σ) (f : Tally → Tally) : Progress σ :=
  { p with findings := { p.findings with tally := f p.findings.tally } }

/-- Analyses a method of a class. -/
def scanMethod {σ : Type} (program : Program) (config : Config σ) (c : ClassInfo)
    (p : Progress σ) (m : MethodInfo) : Logged (Progress σ) := do
  let p := p.count fun t => { t with methods := t.methods + 1 }
  match ← program.body m with
  | .error e =>
    logMissingBody m e
    return p.count fun t => { t with skippedBodies := t.skippedBodies + 1 }
  | .ok body =>
    scanBody config c m body (p.count fun t => { t with analyzed := t.analyzed + 1 })

/-- Analyses a class; phantom classes are skipped. -/
def scanClass {σ : Type} (program : Program) (config : Config σ) (p : Progress σ)
    (c : ClassInfo) : Logged (Progress σ) := do
  if c.phantom then
    Logged.debug ("skipping phantom class " ++ c.name)
    return p.count fun t => { t with phantomClasses := t.phantomClasses + 1 }
  else if config.selection.selectsClass c.name then
    (c.methods.filter fun m => config.selection.selectsMethod m.name).foldlM
      (scanMethod program config c) (p.count fun t => { t with classes := t.classes + 1 })
  else
    return p

/-- The call graph, if the program can have one; that it has none is only logged. -/
def buildCallGraph (program : Program) : Logged (Option CallGraph) := do
  match program.callGraph? with
  | none =>
    Logged.info "call graph not available, falling back to direct method analysis"
    return none
  | some build =>
    match ← build with
    | .error e =>
      Logged.warn ("call graph construction failed: " ++ e.message)
      Logged.info "falling back to direct method analysis"
      return none
    | .ok graph =>
      Logged.info ("call graph built: " ++ toString graph.nodes.length ++ " methods, " ++
        toString graph.edges.length ++ " calls")
      return some graph

/-- The result of a run that ended with the given findings. -/
def Outcome.ofFindings (f : Findings) (writeFailures : Nat) (callGraph : Option CallGraph) :
    Outcome :=
  ⟨f.ledger.report, ⟨f.tally, writeFailures, f.apis.length⟩, callGraph⟩

/-- Runs the detection over a program, with the sink in the given state. -/
def run {σ : Type} (program : Program) (config : Config σ) (sink : σ) :
    Logged (Except AnalysisError Outcome × σ) := do
  let callGraph ← buildCallGraph program
  match program.classes with
  | .error e => return (.error e, sink)
  | .ok classes =>
    let p ← classes.foldlM (scanClass program config) ⟨{}, 0, sink⟩
    return (.ok (.ofFindings p.findings p.writeFailures callGraph), p.sink)

end Detection

end PermissionAudit
