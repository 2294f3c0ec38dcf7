import PermissionAudit.Program.Basic
import PermissionAudit.Sequence.Distinct

/-!
The control flow graph of a body. Nodes stand either for instructions or for
their texts, so that instructions with one text share a node; in both cases
there is one edge per instruction and successor.
-/

namespace PermissionAudit

/-- What a node stands for. -/
inductive NodeKeying where
  /-- All instructions with one text. -/
  | label
  /-- One instruction. -/
  | instruction
deriving DecidableEq

/-- The text with a backslash before every double quote, for use inside quotes. -/
def escapeLabel (s : String) : String :=
  String.ofList (s.toList.flatMap fun c => if c = '"' then ['\\', '"'] else [c])

structure FlowGraph where
  keying : NodeKeying
  /-- Labels of the nodes, in order of first mention. -/
  labels : List String
  /-- Edges as pairs of node positions. -/
  edges : List (Nat × Nat)
deriving DecidableEq

namespace FlowGraph

/-- Instruction positions in the order in which the graph mentions them: each one, followed by
its successors. -/
def mentions (b : Body) : List Nat :=
  (List.range b.length).flatMap fun i => i :: b.successorsAt i

/-- Each instruction position with each of its successors. -/
def steps (b : Body) : List (Nat × Nat) :=
  (List.range b.length).flatMap fun i => (b.successorsAt i).map fun s => (i, s)

/-- The label of the instruction at position `i`. -/
def labelAt (labels : List String) (i : Nat) : String := labels[i]?.getD ""

/-- The graph of a body whose instructions have the given labels. -/
def ofLabels (b : Body) (keying : NodeKeying) (labels : List String) : FlowGraph :=
  match keying with
  | .label =>
    let nodes := distinct ((mentions b).map (labelAt labels))
    let node (i : Nat) : Nat := nodes.idxOf (labelAt labels i)
    ⟨keying, nodes, (steps b).map fun e => (node e.1, node e.2)⟩
  | .instruction =>
    let nodes := distinct (mentions b)
    ⟨keying, nodes.map (labelAt labels), (steps b).map fun e =>
      (nodes.idxOf e.1, nodes.idxOf e.2)⟩

/-- The graph of a body; every instruction is written once. -/
def build (b : Body) (keying : NodeKeying) : Logged FlowGraph := do
  let texts ← b.instrs.mapM (·.text)
  return ofLabels b keying (texts.map escapeLabel)

/-- Edges as pairs of labels. -/
def edgeLabels (g : FlowGraph) : List (String × String) :=
  g.edges.map fun e => (labelAt g.labels e.1, labelAt g.labels e.2)

/-- A text in double quotes. -/
def quoted (s : String) : String := "\"" ++ s ++ "\""

/-- Statements of the graph: nodes, then edges. -/
def statements (g : FlowGraph) : List String :=
  match g.keying with
  | .label =>
    g.labels.map quoted ++ g.edgeLabels.map fun e => quoted e.1 ++ "->" ++ quoted e.2
  | .instruction =>
    (g.labels.zipIdx.map fun n => "n" ++ toString n.2 ++ " [label=" ++ quoted n.1 ++ "]") ++
      g.edges.map fun e => "n" ++ toString e.1 ++ "->n" ++ toString e.2

/-- The graph in the DOT language, under a name. -/
def dot (g : FlowGraph) (name : String) : String :=
  "digraph " ++ quoted (escapeLabel name) ++ " \x7b\n" ++
    String.join (g.statements.map fun s => "    " ++ s ++ ";\n") ++ "\x7d\n"

end FlowGraph

end PermissionAudit
