import PermissionAudit.Proofs.Machine.Body
import PermissionAudit.Proofs.Machine.Graph
import PermissionAudit.Proofs.Program.CallGraph.Built
import PermissionAudit.Sequence.KeyMap

/-!
The call graph of a program on the machine. Nodes are found by name in a map,
which locates every node and nothing else. The node of a calling method is
there from the start, since the methods of all classes are put in before any
call, and nodes are never taken out. The only trap is that of a graph that is
full.
-/

namespace PermissionAudit

/-! ## Nodes are kept -/

namespace CallGraph

theorem keeps_intern (g : CallGraph) (name : String) (status : Status) :
    g.nodes <+: (g.intern name status).2.nodes := by
  rw [intern]
  split
  · exact List.prefix_refl _
  · exact List.prefix_append _ _

theorem keeps_addCall (source offset : Nat) (g : CallGraph) (callee : String) :
    g.nodes <+: (addCall source offset g callee).nodes := g.keeps_intern callee .external

theorem keeps_foldl {α : Type} {step : CallGraph → α → CallGraph}
    (kept : ∀ g x, g.nodes <+: (step g x).nodes) (xs : List α) (g : CallGraph) :
    g.nodes <+: (xs.foldl step g).nodes := by
  induction xs generalizing g with
  | nil => exact List.prefix_refl _
  | cons x rest ih => exact (kept g x).trans (ih (step g x))

theorem keeps_addInstr (classes : List ClassInfo) (hierarchy : Hierarchy) (caller : MethodInfo)
    (source : Nat) (g : CallGraph) (instr : BodyInstr) :
    g.nodes <+: (addInstr classes hierarchy caller source g instr).value.nodes := by
  obtain ⟨offset, text, target⟩ := instr
  rcases target with _ | e | t
  · exact List.prefix_refl _
  · exact List.prefix_refl _
  · exact keeps_foldl (keeps_addCall source offset) _ g

theorem keeps_addMethod (body : MethodInfo → Logged (Except AnalysisError Body))
    (classes : List ClassInfo) (hierarchy : Hierarchy) (g : CallGraph)
    (declared : ClassInfo × MethodInfo) :
    g.nodes <+: (addMethod body classes hierarchy g declared).value.nodes := by
  obtain ⟨c, m⟩ := declared
  simp only [addMethod, Logged.value_bind]
  cases (body m).value with
  | error e => exact List.prefix_refl _
  | ok b =>
    simp only [Logged.value_foldlM]
    exact (g.keeps_intern _ .app).trans (keeps_foldl (keeps_addInstr classes hierarchy m _) _ _)

end CallGraph

namespace Machine

open CallGraph (Node Edge Status present declaredNames)

/-- The nodes that an edge joins. -/
def callEnds (e : Edge) : Nat × Nat := (e.source, e.target)

/-- A call graph under construction: the nodes, the position of the node of each name, and the
calls, which become edges in the end. -/
structure CallDrawing (capacity : Nat) where
  graph : Graph capacity Node Edge callEnds
  positions : KeyMap Nat
  calls : List Edge

namespace CallDrawing

variable {capacity : Nat}

def blank (capacity : Nat) : CallDrawing capacity := ⟨.empty capacity Node Edge callEnds, .leaf, []⟩

/-- The node of the method with a name, which is added if there is none. -/
def nodeOf (d : CallDrawing capacity) (name : String) (status : Status) :
    Run (Nat × CallDrawing capacity) := do
  match d.positions.get? name with
  | some node => return (node, d)
  | none =>
    let (node, graph) ← d.graph.addNode ⟨name, status⟩
    return (node, { d with graph, positions := d.positions.insert name node })

/-- The node of the method with a name, which must be known. -/
def nodeNamed (d : CallDrawing capacity) (name : String) : Run Nat :=
  match d.positions.get? name with
  | some node => .ok node
  | none => .error (.key name)

/-- Adds a method of the program. -/
def declare (d : CallDrawing capacity) (name : String) : Run (CallDrawing capacity) := do
  let (_, d) ← d.nodeOf name .app
  return d

/-- Adds a call from the node at `source`; a new target is external. -/
def addCall (source offset : Nat) (d : CallDrawing capacity) (callee : String) :
    Run (CallDrawing capacity) := do
  let (target, d) ← d.nodeOf callee .external
  return { d with calls := CallGraph.insertCall source target offset d.calls }

/-- Adds the calls of one instruction of the node at `source`. -/
def addInstr (classes : List ClassInfo) (hierarchy : Hierarchy) (source : Nat)
    (d : CallDrawing capacity) (instr : HostInstr) : Run (CallDrawing capacity) := do
  match ← instr.target with
  | some (.ok t) =>
    (CallGraph.callees classes hierarchy t).foldlM (addCall source instr.offset) d
  | _ => return d

/-- Adds the calls of one method. A method without a body calls nothing. -/
def addMethod (body : MethodInfo → Fallible AnalysisError HostBody) (classes : List ClassInfo)
    (hierarchy : Hierarchy) (d : CallDrawing capacity) (declared : ClassInfo × MethodInfo) :
    Run (CallDrawing capacity) := do
  let (c, m) := declared
  match ← (body m).run with
  | .error _ => return d
  | .ok b =>
    let source ← d.nodeNamed (qualifiedName c.name m.name)
    b.instrs.foldlM (addInstr classes hierarchy source) d

/-- The graph with an edge for all calls between two nodes. -/
def finish (d : CallDrawing capacity) : Run CallGraph := do
  let graph ← d.calls.foldlM Graph.addEdge d.graph
  return ⟨graph.nodes, graph.edges⟩

end CallDrawing

/-- The graph of a program with the given classes and bodies, if there is room for it; phantom
classes are left out. -/
def callGraph (capacity : Nat) (classes : List ClassInfo)
    (body : MethodInfo → Fallible AnalysisError HostBody) : Run CallGraph := do
  let classes := classes.filter fun c => !c.phantom
  let hierarchy := Hierarchy.ofClasses classes
  let names := classes.flatMap fun c => c.methods.map fun m => qualifiedName c.name m.name
  let d ← names.foldlM CallDrawing.declare (.blank capacity)
  let declared := classes.flatMap fun c => c.methods.map fun m => (c, m)
  let d ← declared.foldlM (CallDrawing.addMethod body classes hierarchy) d
  d.finish

/-! ## What a drawing of calls shows -/

/-- The drawing shows the nodes and the calls of the graph, and locates the nodes by name. -/
structure Draws {capacity : Nat} (d : CallDrawing capacity) (g : CallGraph) : Prop where
  nodes : d.graph.nodes = g.nodes
  edges : d.graph.edges = []
  calls : d.calls = g.edges
  located : d.positions.Locates g.nodes fun n name => n.name = name

section Draws

variable {capacity : Nat} {d : CallDrawing capacity} {g : CallGraph} {classes : List ClassInfo}
  {hierarchy : Hierarchy} {body : MethodInfo → Fallible AnalysisError HostBody}
  {body' : MethodInfo → Logged (Except AnalysisError Body)}

theorem draws_blank (capacity : Nat) : Draws (.blank capacity) ⟨[], []⟩ :=
  ⟨rfl, rfl, rfl, KeyMap.Locates.nil⟩

namespace Draws

theorem nodes_le (h : Draws d g) : g.nodes.length ≤ capacity := h.nodes ▸ d.graph.fits.nodes_le

/-- The map finds what a search of the nodes finds. -/
theorem get?_eq (h : Draws d g) (name : String) : d.positions.get? name = g.find? name := by
  cases hf : g.find? name with
  | some node =>
    obtain ⟨n, hn, same⟩ := Option.map_eq_some_iff.mp (CallGraph.nameAt_of_find? hf)
    exact (h.located name node).mpr ⟨n, hn, same⟩
  | none =>
    rw [Option.eq_none_iff_forall_ne_some]
    intro node found
    obtain ⟨n, hn, rfl⟩ := (h.located name node).mp found
    exact CallGraph.find?_eq_none_iff.mp hf (List.mem_map_of_mem (List.mem_of_getElem? hn))

theorem nodeNamed_eq (h : Draws d g) {name : String} (known : name ∈ g.nodes.map (·.name)) :
    d.nodeNamed name = .ok (g.intern name .app).1 := by
  rw [CallDrawing.nodeNamed, h.get?_eq, CallGraph.intern]
  cases hf : g.find? name with
  | none => exact absurd known (CallGraph.find?_eq_none_iff.mp hf)
  | some node => rfl

/-- **One name**: it has a node afterwards, a new one at the end if there was none. -/
theorem nodeOf (h : Draws d g) (name : String) (status : Status) :
    Limited ((g.intern name status).2.nodes.length ≤ capacity) (· = .capacity capacity)
      (fun found => found.1 = (g.intern name status).1 ∧
        Draws found.2 (g.intern name status).2) (d.nodeOf name status) := by
  rw [CallDrawing.nodeOf, h.get?_eq, CallGraph.intern]
  cases hf : g.find? name with
  | some node => exact .ok h.nodes_le ⟨rfl, h⟩
  | none =>
    have new : d.positions.get? name = none := by rw [h.get?_eq, hf]
    have room : Fits capacity (d.graph.nodes.length + 1) d.graph.edges.length ↔
        (g.nodes ++ [(⟨name, status⟩ : Node)]).length ≤ capacity := by
      rw [List.length_append, List.length_singleton, h.nodes]
      exact ⟨fun fits => fits.nodes_le, fun le => ⟨le, d.graph.fits.edges_le⟩⟩
    refine ((d.graph.limited_addNode ⟨name, status⟩).congr room).bind id ?_
    rintro ⟨node, graph⟩ room ⟨rfl, hn, he⟩
    refine .ok room ⟨congrArg List.length h.nodes, ?_⟩
    refine ⟨by rw [hn, h.nodes], he.trans h.edges, h.calls, ?_⟩
    rw [h.nodes]
    exact h.located.push new fun _ => eq_comm

theorem declare (h : Draws d g) (name : String) :
    Limited ((g.intern name .app).2.nodes.length ≤ capacity) (· = .capacity capacity)
      (Draws · (g.intern name .app).2) (d.declare name) :=
  (h.nodeOf name .app).bind id fun _ room shown => .ok room shown.2

theorem addCall (h : Draws d g) (source offset : Nat) (callee : String) :
    Limited ((CallGraph.addCall source offset g callee).nodes.length ≤ capacity)
      (· = .capacity capacity) (Draws · (CallGraph.addCall source offset g callee))
      (d.addCall source offset callee) := by
  refine (h.nodeOf callee .external).bind id ?_
  rintro ⟨target, d'⟩ room ⟨rfl, shown⟩
  exact .ok room ⟨shown.nodes, shown.edges, congrArg _ shown.calls, shown.located⟩

/-- **A loop**: a drawing keeps showing a graph that grows step by step. -/
theorem foldlM {α : Type} {xs : List α} {add : CallDrawing capacity → α → Run (CallDrawing capacity)}
    {step : CallGraph → α → CallGraph} (kept : ∀ g x, g.nodes <+: (step g x).nodes)
    (h : Draws d g)
    (round : ∀ (d : CallDrawing capacity) (g' : CallGraph), ∀ x ∈ xs, g.nodes <+: g'.nodes →
      Draws d g' → Limited ((step g' x).nodes.length ≤ capacity) (· = .capacity capacity)
        (Draws · (step g' x)) (add d x)) :
    Limited ((xs.foldl step g).nodes.length ≤ capacity) (· = .capacity capacity)
      (Draws · (xs.foldl step g)) (xs.foldlM add d) := by
  refine Limited.foldlM (F := fun done => (done.foldl step g).nodes.length ≤ capacity)
    (W := fun done (d : CallDrawing capacity) => Draws d (done.foldl step g)) ?_ ⟨h.nodes_le, h⟩ ?_
  · intro done x room
    rw [List.foldl_append] at room
    exact Nat.le_trans (kept _ x).length_le room
  · intro done x hx d' room shown
    rw [List.foldl_append]
    exact round d' _ x hx (CallGraph.keeps_foldl kept done g) shown

theorem addInstr (h : Draws d g) (caller : MethodInfo) (source : Nat) (instr : BodyInstr) :
    Limited ((CallGraph.addInstr classes hierarchy caller source g instr).value.nodes.length ≤
        capacity) (· = .capacity capacity)
      (Draws · (CallGraph.addInstr classes hierarchy caller source g instr).value)
      (CallDrawing.addInstr classes hierarchy source d (.of instr)) := by
  obtain ⟨offset, text, target⟩ := instr
  rcases target with _ | e | t
  · exact .ok h.nodes_le h
  · exact .ok h.nodes_le h
  · exact h.foldlM (CallGraph.keeps_addCall source offset) fun d' g' callee _ _ shown =>
      shown.addCall source offset callee

/-- **One method**: its own node is known, as all declared methods are. -/
theorem addMethod (hb : ∀ m, body m = finished ((body' m).value.map HostBody.of)) (h : Draws d g)
    {c : ClassInfo} {m : MethodInfo}
    (known : qualifiedName c.name m.name ∈ g.nodes.map (·.name)) :
    Limited ((CallGraph.addMethod body' classes hierarchy g (c, m)).value.nodes.length ≤ capacity)
      (· = .capacity capacity)
      (Draws · (CallGraph.addMethod body' classes hierarchy g (c, m)).value)
      (CallDrawing.addMethod body classes hierarchy d (c, m)) := by
  simp only [CallDrawing.addMethod, CallGraph.addMethod, hb, run_finished, Logged.value_bind]
  cases (body' m).value with
  | error e => exact .ok h.nodes_le h
  | ok b =>
    simp only [(CallGraph.intern_known .app known).1, Logged.value_foldlM]
    show Limited _ _ _ (d.nodeNamed (qualifiedName c.name m.name) >>= fun source =>
      (b.instrs.map HostInstr.of).foldlM (CallDrawing.addInstr classes hierarchy source) d)
    rw [run_bind (h.nodeNamed_eq known), List.foldlM_map]
    exact h.foldlM (CallGraph.keeps_addInstr classes hierarchy m _) fun d' g' instr _ _ shown =>
      shown.addInstr m _ instr

/-- **All methods**: what one adds keeps the declared ones known. -/
theorem addMethods (hb : ∀ m, body m = finished ((body' m).value.map HostBody.of))
    {declared : List (ClassInfo × MethodInfo)}
    (known : ∀ x ∈ declared, qualifiedName x.1.name x.2.name ∈ g.nodes.map (·.name))
    (h : Draws d g) :
    Limited ((declared.foldlM (CallGraph.addMethod body' classes hierarchy) g).value.nodes.length ≤
        capacity) (· = .capacity capacity)
      (Draws · (declared.foldlM (CallGraph.addMethod body' classes hierarchy) g).value)
      (declared.foldlM (CallDrawing.addMethod body classes hierarchy) d) := by
  rw [Logged.value_foldlM]
  refine h.foldlM (CallGraph.keeps_addMethod body' classes hierarchy) fun d g' x hx kept shown => ?_
  exact shown.addMethod hb ((kept.map (·.name)).subset (known x hx))

/-- The calls become edges between nodes of the graph. -/
theorem finish (h : Draws d g)
    (inside : ∀ e ∈ g.edges, e.source < g.nodes.length ∧ e.target < g.nodes.length) :
    Limited (Fits capacity g.nodes.length g.edges.length) (· = .capacity capacity) (· = g)
      d.finish := by
  rw [CallDrawing.finish, h.calls]
  have added := d.graph.limited_addEdges g.edges (h.nodes ▸ inside)
  rw [h.nodes, h.edges, List.length_nil, Nat.zero_add, List.nil_append] at added
  refine added.bind id ?_
  rintro graph room ⟨hn, he⟩
  exact .ok room (by rw [hn, he])

end Draws

theorem limited_declared (capacity : Nat) (classes : List ClassInfo) :
    Limited ((CallGraph.ofClasses classes).nodes.length ≤ capacity) (· = .capacity capacity)
      (Draws · (CallGraph.ofClasses classes))
      ((declaredNames classes).foldlM CallDrawing.declare (.blank capacity)) :=
  (draws_blank capacity).foldlM (fun g name => g.keeps_intern name .app)
    fun _ _ name _ _ shown => shown.declare name

/-- Every declared method has a node before any call is added. -/
theorem declared_known {classes : List ClassInfo} {x : ClassInfo × MethodInfo}
    (h : x ∈ classes.flatMap fun c => c.methods.map fun m => (c, m)) :
    qualifiedName x.1.name x.2.name ∈ (CallGraph.ofClasses classes).nodes.map (·.name) := by
  rw [(CallGraph.represents_ofClasses classes).names_eq, List.map_nil, List.append_nil,
    mem_distinct]
  obtain ⟨c, hc, declared⟩ := List.mem_flatMap.mp h
  obtain ⟨m, hm, rfl⟩ := List.mem_map.mp declared
  exact List.mem_flatMap.mpr ⟨c, hc, List.mem_map_of_mem hm⟩

/-- Edges of the graph of a program join its nodes. -/
theorem joined_build (classes : List ClassInfo) :
    ∀ e ∈ (CallGraph.build classes body').value.edges,
      e.source < (CallGraph.build classes body').value.nodes.length ∧
        e.target < (CallGraph.build classes body').value.nodes.length := by
  intro e he
  have inside {i : Nat} {name : String}
      (h : (CallGraph.build classes body').value.nameAt i = some name) :
      i < (CallGraph.build classes body').value.nodes.length := by
    obtain ⟨n, hn, -⟩ := Option.map_eq_some_iff.mp h
    exact (List.getElem?_eq_some_iff.mp hn).1
  obtain ⟨call, -, source, target, -⟩ :=
    (CallGraph.represents_build classes body').edge_call e he
  exact ⟨inside source, inside target⟩

/-- **The call graph of a program** is drawn without a trap exactly if there is room for it. -/
theorem callGraph_eq (capacity : Nat)
    (hb : ∀ m, body m = finished ((body' m).value.map HostBody.of)) (classes : List ClassInfo) :
    callGraph capacity classes body =
      if Fits capacity (CallGraph.build classes body').value.nodes.length
          (CallGraph.build classes body').value.edges.length then
        .ok (CallGraph.build classes body').value
      else
        .error (.capacity capacity) := by
  refine Limited.eq_ite ?_
  refine (limited_declared capacity (present classes)).bind (fun fits => ?_) fun d _ shown => ?_
  · refine Nat.le_trans (List.IsPrefix.length_le ?_) fits.nodes_le
    rw [CallGraph.build, Logged.value_foldlM]
    exact CallGraph.keeps_foldl (CallGraph.keeps_addMethod body' _ _) _ _
  · exact (shown.addMethods hb fun _ hx => declared_known hx).bind Fits.nodes_le
      fun d _ shown => shown.finish (joined_build classes)

end Draws

end Machine

end PermissionAudit
