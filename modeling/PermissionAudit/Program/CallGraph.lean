import PermissionAudit.Program.Hierarchy

/-!
The call graph of a program by class hierarchy analysis. Nodes are methods by
qualified name, overloads in one node. A call leads to the method it names and,
when it dispatches dynamically, to the methods of that name declared below the
named class.
-/

namespace PermissionAudit

namespace CallGraph

inductive Status where
  /-- Declared by a class of the program. -/
  | app
  /-- Only known as the target of a call. -/
  | external
deriving DecidableEq

structure Node where
  name : String
  status : Status
deriving DecidableEq

/-- An edge between node positions, with the offsets of its calls in ascending order. -/
structure Edge where
  source : Nat
  target : Nat
  offsets : List Nat
deriving DecidableEq

end CallGraph

structure CallGraph where
  nodes : List CallGraph.Node
  /-- Edges in ascending order of source and target. -/
  edges : List CallGraph.Edge
deriving DecidableEq

namespace CallGraph

/-- A number put into an ascending list, once. -/
def insertOffset (offset : Nat) : List Nat → List Nat
  | [] => [offset]
  | o :: rest =>
    if offset < o then offset :: o :: rest
    else if offset = o then o :: rest
    else o :: insertOffset offset rest

/-- A call put into a list of edges, which keeps its order. -/
def insertCall (source target offset : Nat) : List Edge → List Edge
  | [] => [⟨source, target, [offset]⟩]
  | e :: rest =>
    if source = e.source ∧ target = e.target then
      { e with offsets := insertOffset offset e.offsets } :: rest
    else if source < e.source ∨ (source = e.source ∧ target < e.target) then
      ⟨source, target, [offset]⟩ :: e :: rest
    else
      e :: insertCall source target offset rest

/-- The position of the method with a name. -/
def find? (g : CallGraph) (name : String) : Option Nat := g.nodes.findIdx? (·.name = name)

/-- Adds a method unless it is known, and returns its position. -/
def intern (g : CallGraph) (name : String) (status : Status) : Nat × CallGraph :=
  match g.find? name with
  | some position => (position, g)
  | none => (g.nodes.length, { g with nodes := g.nodes ++ [⟨name, status⟩] })

/-- Adds a call from the node at `source`; a new target is external. -/
def addCall (source offset : Nat) (g : CallGraph) (callee : String) : CallGraph :=
  let (target, g) := g.intern callee .external
  { g with edges := insertCall source target offset g.edges }

/-- Whether some class of that name declares a method; of classes with one name the last
counts. -/
def declares (classes : List ClassInfo) (className methodName : String) : Bool :=
  match classes.reverse.find? (·.name = className) with
  | some c => c.methods.any (·.name = methodName)
  | none => false

/-- Methods that a call may run, by name: the one it names first. -/
def callees (classes : List ClassInfo) (hierarchy : Hierarchy) (t : CallTarget) : List String :=
  let below := if t.dispatch.isDynamic then
      (hierarchy.descendants t.className).filter (declares classes · t.methodName)
    else []
  t.api :: below.map (qualifiedName · t.methodName)

/-- The methods that classes declare, in order. -/
def ofClasses (classes : List ClassInfo) : CallGraph :=
  (classes.flatMap fun c => c.methods.map fun m => qualifiedName c.name m.name).foldl
    (fun g name => (g.intern name .app).2) ⟨[], []⟩

/-- Adds the calls of one instruction of the node at `source`. -/
def addInstr (classes : List ClassInfo) (hierarchy : Hierarchy) (caller : MethodInfo)
    (source : Nat) (g : CallGraph) (instr : BodyInstr) : Logged CallGraph := do
  match instr.target with
  | none => return g
  | some (.error e) =>
    Logged.trace ("unresolved call in " ++ caller.callerId ++ ": " ++ e.message)
    return g
  | some (.ok t) =>
    return (callees classes hierarchy t).foldl (addCall source instr.offset) g

/-- Adds the calls of one method. A method without a body calls nothing. -/
def addMethod (body : MethodInfo → Logged (Except AnalysisError Body))
    (classes : List ClassInfo) (hierarchy : Hierarchy) (g : CallGraph)
    (declared : ClassInfo × MethodInfo) : Logged CallGraph := do
  let (c, m) := declared
  match ← body m with
  | .error e =>
    Logged.trace ("no call from " ++ m.callerId ++ ": " ++ e.message)
    return g
  | .ok b =>
    let (source, g) := g.intern (qualifiedName c.name m.name) .app
    b.instrs.foldlM (addInstr classes hierarchy m source) g

/-- The graph of a program with the given classes and bodies; phantom classes are left out. -/
def build (classes : List ClassInfo)
    (body : MethodInfo → Logged (Except AnalysisError Body)) : Logged CallGraph :=
  let classes := classes.filter fun c => !c.phantom
  let hierarchy := Hierarchy.ofClasses classes
  let declared := classes.flatMap fun c => c.methods.map fun m => (c, m)
  declared.foldlM (addMethod body classes hierarchy) (ofClasses classes)

/-- Names of the methods that a method calls, sorted. -/
def calleesOf (g : CallGraph) (name : String) : List String :=
  match g.find? name with
  | none => []
  | some position =>
    ((g.edges.filter (·.source = position)).filterMap fun e =>
      g.nodes[e.target]?.map (·.name)).mergeSort fun a b => decide (a ≤ b)

/-- A label inside quotes: backslashes and quotes get a backslash, a line feed ends a
left-justified line. -/
def dotEscape (s : String) : String :=
  String.ofList (s.toList.flatMap fun c =>
    if c = '"' ∨ c = '\\' then ['\\', c] else if c = '\n' then ['\\', 'l'] else [c])

def Status.color : Status → String
  | .app => "black"
  | .external => "blue"

def nodeStatement (n : Node) (position : Nat) : String :=
  "    " ++ toString position ++ " [ label = \"" ++ dotEscape n.name ++ "\" color=" ++
    n.status.color ++ ",shape=box]\n"

def edgeStatement (e : Edge) : String :=
  "    " ++ toString e.source ++ " -> " ++ toString e.target ++ " [ label = \"" ++
    Fields.join ", " (e.offsets.map (Digits.hex 4)) ++ "\" ]\n"

/-- The graph in the DOT language. -/
def dot (g : CallGraph) : String :=
  "digraph \x7b\n  rankdir=LR;\n" ++
    String.join (g.nodes.zipIdx.map fun n => nodeStatement n.1 n.2) ++
    String.join (g.edges.map edgeStatement) ++ "\x7d"

end CallGraph

end PermissionAudit
