import Mathlib.Data.List.Basic
import PermissionAudit.Program.FlowGraph
import PermissionAudit.Proofs.Machine.Body
import PermissionAudit.Proofs.Machine.Graph
import PermissionAudit.Sequence.KeyMap

/-!
Flow graphs on the machine. A graph is drawn instruction by instruction; labels
and nodes are read at positions of the body, which its successors are. The
drawing at any moment shows the instructions mentioned and the edges drawn so
far, for either way of giving nodes to instructions. The only trap is that of a
graph that is full.
-/

namespace PermissionAudit.Machine

open FlowGraph (labelAt mentions steps)

/-- A flow graph under construction, with the nodes that labels and instructions have. -/
structure Drawing (capacity : Nat) where
  graph : Graph capacity String (Nat × Nat) id
  byLabel : KeyMap Nat
  byInstr : List (Option Nat)

namespace Drawing

variable {capacity : Nat}

/-- Nothing drawn yet, for a number of instructions. -/
def blank (capacity count : Nat) : Drawing capacity :=
  ⟨.empty capacity String (Nat × Nat) id, .leaf, List.replicate count none⟩

/-- The node that the instruction at position `i` has already. -/
def nodeAt (keying : NodeKeying) (labels : List String) (d : Drawing capacity) (i : Nat) :
    Run (Option Nat) :=
  match keying with
  | .label => do return d.byLabel.get? (← index labels i)
  | .instruction => index d.byInstr i

/-- Notes the node that was added for the instruction at position `i`. -/
def note (keying : NodeKeying) (d : Drawing capacity) (label : String) (i node : Nat) :
    Drawing capacity :=
  match keying with
  | .label => { d with byLabel := d.byLabel.insert label node }
  | .instruction => { d with byInstr := d.byInstr.set i (some node) }

/-- The node of the instruction at position `i`, which is added if it has none. -/
def nodeOf (keying : NodeKeying) (labels : List String) (d : Drawing capacity) (i : Nat) :
    Run (Nat × Drawing capacity) := do
  match ← d.nodeAt keying labels i with
  | some node => return (node, d)
  | none =>
    let label ← index labels i
    let (node, graph) ← d.graph.addNode label
    return (node, { d with graph }.note keying label i node)

/-- Adds an edge from a node to the instruction at position `s`. -/
def addSuccessor (keying : NodeKeying) (labels : List String) (source : Nat)
    (d : Drawing capacity) (s : Nat) : Run (Drawing capacity) := do
  let (target, d) ← d.nodeOf keying labels s
  let graph ← d.graph.addEdge (source, target)
  return { d with graph }

/-- Adds the instruction at position `i` and the edges to its successors. -/
def addInstr (keying : NodeKeying) (labels : List String) (b : HostBody) (d : Drawing capacity)
    (i : Nat) : Run (Drawing capacity) := do
  let (source, d) ← d.nodeOf keying labels i
  (b.successors[i]?.getD []).foldlM (addSuccessor keying labels source) d

end Drawing

/-- The graph of a body, if there is room for it. -/
def flowGraph (capacity : Nat) (b : HostBody) (keying : NodeKeying) : Run FlowGraph := do
  let texts ← b.instrs.mapM (·.text)
  let labels := texts.map escapeLabel
  let d ← (List.range labels.length).foldlM (Drawing.addInstr keying labels b)
    (.blank capacity labels.length)
  return ⟨keying, d.graph.nodes, d.graph.edges⟩

/-! ## Nodes of instructions -/

section Position

variable {κ : Type} [DecidableEq κ] {key : Nat → κ} {seen : List Nat} {i j : Nat}

/-- The node of the instruction at position `i`, after the instructions `seen`. -/
def position (key : Nat → κ) (seen : List Nat) (i : Nat) : Nat :=
  (distinct (seen.map key)).idxOf (key i)

theorem position_of_known (h : key i ∈ seen.map key) :
    position key (seen ++ [j]) i = position key seen i := by
  rw [position, position, List.map_append, List.map_singleton, distinct_append_singleton]
  split
  · rfl
  · exact List.idxOf_append_of_mem (mem_distinct.mpr h)

theorem position_append (h : i ∈ seen) (more : List Nat) :
    position key (seen ++ more) i = position key seen i := by
  induction more using List.reverseRecOn with
  | nil => rw [List.append_nil]
  | append_singleton more j ih =>
    rw [← List.append_assoc, position_of_known (by simp [List.mem_map_of_mem h]), ih]

theorem position_of_new (h : key i ∉ seen.map key) :
    position key (seen ++ [i]) i = (distinctBy key seen).length := by
  rw [position, List.map_append, List.map_singleton, distinct_append_singleton, if_neg h,
    List.idxOf_append_of_notMem (mt mem_distinct.mp h), List.idxOf_cons_self, ← map_distinctBy,
    List.length_map, Nat.add_zero]

/-- What was mentioned has a node. -/
theorem position_lt (h : i ∈ seen) : position key seen i < (distinctBy key seen).length := by
  rw [position, ← map_distinctBy, ← List.length_map (f := key)]
  exact List.idxOf_lt_length_of_mem
    (map_distinctBy key seen ▸ mem_distinct.mpr (List.mem_map_of_mem h))

/-- Mentioning more leaves no fewer nodes. -/
theorem length_distinctBy_append_le (key : Nat → κ) (seen more : List Nat) :
    (distinctBy key seen).length ≤ (distinctBy key (seen ++ more)).length := by
  induction more using List.reverseRecOn with
  | nil => simp
  | append_singleton more i ih =>
    rw [← List.append_assoc, distinctBy_append_singleton]
    split
    · exact ih
    · rw [List.length_append]
      omega

end Position

namespace Drawing

variable {capacity : Nat}

/-- The node that the instruction at position `i` has already; labels are read anywhere. -/
def node? (keying : NodeKeying) (labels : List String) (d : Drawing capacity) (i : Nat) :
    Option Nat :=
  match keying with
  | .label => d.byLabel.get? (labelAt labels i)
  | .instruction => d.byInstr[i]?.join

/-- Instructions share a node exactly if they have one key. -/
def Keyed {κ : Type} [DecidableEq κ] (capacity : Nat) (keying : NodeKeying) (labels : List String)
    (key : Nat → κ) : Prop :=
  ∀ (d : Drawing capacity) (node i j : Nat), i < d.byInstr.length →
    (d.note keying (labelAt labels i) i node).node? keying labels j =
      if key j = key i then some node else d.node? keying labels j

theorem keyed_label (labels : List String) : Keyed capacity .label labels (labelAt labels) := by
  intro d node i j _
  exact KeyMap.get?_insert ..

theorem keyed_instruction (labels : List String) : Keyed capacity .instruction labels id := by
  intro d node i j hi
  rw [note, node?, node?, List.getElem?_set]
  by_cases same : j = i
  · simp [same, hi]
  · simp [same, Ne.symm same]

theorem length_byInstr_note (keying : NodeKeying) (d : Drawing capacity) (label : String)
    (i node : Nat) : (d.note keying label i node).byInstr.length = d.byInstr.length := by
  cases keying
  · rfl
  · exact List.length_set ..

theorem graph_note (keying : NodeKeying) (d : Drawing capacity) (label : String) (i node : Nat) :
    (d.note keying label i node).graph = d.graph := by
  cases keying <;> rfl

theorem node?_graph (keying : NodeKeying) (labels : List String) (d : Drawing capacity)
    (graph : Graph capacity String (Nat × Nat) id) (i : Nat) :
    { d with graph }.node? keying labels i = d.node? keying labels i := by
  cases keying <;> rfl

theorem index_labels {labels : List String} {i : Nat} (h : i < labels.length) :
    index labels i = .ok (labelAt labels i) := by
  rw [index_eq (List.getElem?_eq_getElem h), labelAt, List.getElem?_eq_getElem h]
  rfl

theorem nodeAt_eq {labels : List String} {d : Drawing capacity} {i : Nat} (keying : NodeKeying)
    (hi : i < labels.length) (hd : d.byInstr.length = labels.length) :
    d.nodeAt keying labels i = .ok (d.node? keying labels i) := by
  cases keying with
  | label =>
    rw [nodeAt, index_labels hi]
    rfl
  | instruction =>
    have found := List.getElem?_eq_getElem (hd ▸ hi : i < d.byInstr.length)
    rw [nodeAt, node?, index_eq found, found]
    rfl

end Drawing

/-! ## What a drawing shows -/

open Drawing (Keyed addSuccessor addInstr)

section Shows

variable {capacity : Nat} {κ : Type} [DecidableEq κ]

/-- The drawing shows the instructions `seen`, in this order, and the edges `drawn`. -/
structure Shows (keying : NodeKeying) (labels : List String) (key : Nat → κ)
    (d : Drawing capacity) (seen : List Nat) (drawn : List (Nat × Nat)) : Prop where
  nodes : d.graph.nodes = (distinctBy key seen).map (labelAt labels)
  length_byInstr : d.byInstr.length = labels.length
  node? : ∀ i, d.node? keying labels i =
    if key i ∈ seen.map key then some (position key seen i) else none
  edges : d.graph.edges = drawn.map fun e => (position key seen e.1, position key seen e.2)
  seen_of_drawn : ∀ e ∈ drawn, e.1 ∈ seen ∧ e.2 ∈ seen

/-- There is room for what was mentioned and drawn. -/
abbrev HasRoom (capacity : Nat) (key : Nat → κ) (seen : List Nat) (drawn : List (Nat × Nat)) :
    Prop :=
  Fits capacity (distinctBy key seen).length drawn.length

theorem HasRoom.of_append {key : Nat → κ} {seen more : List Nat} {drawn added : List (Nat × Nat)}
    (h : HasRoom capacity key (seen ++ more) (drawn ++ added)) :
    HasRoom capacity key seen drawn :=
  h.mono (length_distinctBy_append_le key seen more) (by rw [List.length_append]; omega)

theorem shows_blank (keying : NodeKeying) (labels : List String) (key : Nat → κ) :
    Shows keying labels key (.blank capacity labels.length) [] [] where
  nodes := rfl
  length_byInstr := List.length_replicate
  node? i := by
    cases keying with
    | label => rfl
    | instruction =>
      simp only [Drawing.node?, Drawing.blank, List.getElem?_replicate]
      split <;> rfl
  edges := rfl
  seen_of_drawn := nofun

variable {keying : NodeKeying} {labels : List String} {key : Nat → κ} {d : Drawing capacity}
  {seen : List Nat} {drawn : List (Nat × Nat)}

namespace Shows

theorem length_nodes (h : Shows keying labels key d seen drawn) :
    d.graph.nodes.length = (distinctBy key seen).length := by
  rw [h.nodes, List.length_map]

theorem length_edges (h : Shows keying labels key d seen drawn) :
    d.graph.edges.length = drawn.length := by
  rw [h.edges, List.length_map]

theorem hasRoom (h : Shows keying labels key d seen drawn) : HasRoom capacity key seen drawn := by
  rw [HasRoom, ← h.length_nodes, ← h.length_edges]
  exact d.graph.fits

/-- Edges stay between the same nodes when another instruction is mentioned. -/
theorem edges_append (h : Shows keying labels key d seen drawn) (i : Nat) :
    d.graph.edges = drawn.map fun e =>
      (position key (seen ++ [i]) e.1, position key (seen ++ [i]) e.2) := by
  rw [h.edges]
  refine List.map_congr_left fun e he => ?_
  obtain ⟨source, target⟩ := h.seen_of_drawn e he
  rw [position_of_known (List.mem_map_of_mem source),
    position_of_known (List.mem_map_of_mem target)]

theorem seen_append (h : Shows keying labels key d seen drawn) (i : Nat) :
    ∀ e ∈ drawn, e.1 ∈ seen ++ [i] ∧ e.2 ∈ seen ++ [i] := fun e he =>
  ⟨List.mem_append_left _ (h.seen_of_drawn e he).1, List.mem_append_left _ (h.seen_of_drawn e he).2⟩

/-- An instruction whose key is known has a node. -/
theorem known (h : Shows keying labels key d seen drawn) {i : Nat} (hi : key i ∈ seen.map key) :
    Shows keying labels key d (seen ++ [i]) drawn where
  nodes := by rw [h.nodes, distinctBy_append_singleton, if_pos hi]
  length_byInstr := h.length_byInstr
  node? j := by
    have same : key j ∈ (seen ++ [i]).map key ↔ key j ∈ seen.map key := by
      rw [List.map_append, List.map_singleton, List.mem_append, List.mem_singleton]
      exact or_iff_left_of_imp fun e => e ▸ hi
    rw [h.node?]
    by_cases hj : key j ∈ seen.map key
    · rw [if_pos hj, if_pos (same.mpr hj), position_of_known hj]
    · rw [if_neg hj, if_neg (mt same.mp hj)]
  edges := h.edges_append i
  seen_of_drawn := h.seen_append i

/-- An instruction whose key is new gets the node that was added for it. -/
theorem note (h : Shows keying labels key d seen drawn) (hk : Keyed capacity keying labels key)
    {i : Nat} (hl : i < labels.length) (hi : key i ∉ seen.map key)
    {graph : Graph capacity String (Nat × Nat) id}
    (hn : graph.nodes = d.graph.nodes ++ [labelAt labels i])
    (he : graph.edges = d.graph.edges) :
    Shows keying labels key
      ({ d with graph }.note keying (labelAt labels i) i d.graph.nodes.length) (seen ++ [i])
      drawn where
  nodes := by
    rw [Drawing.graph_note, hn, h.nodes, distinctBy_append_singleton, if_neg hi, List.map_append]
    rfl
  length_byInstr := (Drawing.length_byInstr_note ..).trans h.length_byInstr
  node? j := by
    rw [hk _ _ i j (h.length_byInstr ▸ hl), Drawing.node?_graph, h.node?, List.map_append,
      List.map_singleton]
    -- what shares the key is found at the new node, all else where it was
    by_cases same : key j = key i
    · have next : position key (seen ++ [i]) j = d.graph.nodes.length := by
        rw [h.length_nodes, ← position_of_new hi, position, same, position]
      rw [if_pos same, if_pos (by simp [same]), next]
    · rw [if_neg same]
      by_cases hj : key j ∈ seen.map key
      · rw [if_pos hj, if_pos (List.mem_append_left _ hj), position_of_known hj]
      · rw [if_neg hj, if_neg (by simpa [same] using hj)]
  edges := by rw [Drawing.graph_note, he, h.edges_append i]
  seen_of_drawn := h.seen_append i

/-- **One mention**: the instruction has a node afterwards, and all else is as before. -/
theorem nodeOf (h : Shows keying labels key d seen drawn) (hk : Keyed capacity keying labels key)
    {i : Nat} (hl : i < labels.length) :
    Limited (HasRoom capacity key (seen ++ [i]) drawn) (· = .capacity capacity)
      (fun found => found.1 = position key (seen ++ [i]) i ∧
        Shows keying labels key found.2 (seen ++ [i]) drawn) (d.nodeOf keying labels i) := by
  rw [Drawing.nodeOf, Drawing.nodeAt_eq keying hl h.length_byInstr, h.node?]
  by_cases hi : key i ∈ seen.map key
  · rw [if_pos hi]
    have shown := h.known hi
    exact .ok shown.hasRoom ⟨(position_of_known hi).symm, shown⟩
  · have grown : HasRoom capacity key (seen ++ [i]) drawn ↔
        Fits capacity (d.graph.nodes.length + 1) d.graph.edges.length := by
      rw [HasRoom, distinctBy_append_singleton, if_neg hi, List.length_append, h.length_nodes,
        h.length_edges, List.length_singleton]
    rw [if_neg hi, Drawing.index_labels hl, position_of_new hi, ← h.length_nodes]
    refine ((d.graph.limited_addNode (labelAt labels i)).congr grown.symm).bind id ?_
    rintro ⟨node, graph⟩ room ⟨rfl, hn, he⟩
    exact .ok room ⟨rfl, h.note hk hl hi hn he⟩

theorem addSuccessor (h : Shows keying labels key d seen drawn)
    (hk : Keyed capacity keying labels key) {i s : Nat} (hi : i ∈ seen) (hs : s < labels.length) :
    Limited (HasRoom capacity key (seen ++ [s]) (drawn ++ [(i, s)])) (· = .capacity capacity)
      (Shows keying labels key · (seen ++ [s]) (drawn ++ [(i, s)]))
      (addSuccessor keying labels (position key seen i) d s) := by
  refine (h.nodeOf hk hs).bind (fun room => room.mono (Nat.le_refl _) (by simp)) ?_
  rintro ⟨target, d'⟩ - ⟨rfl, shown⟩
  rw [← position_of_known (List.mem_map_of_mem hi)]
  have source : i ∈ seen ++ [s] := List.mem_append_left _ hi
  have target : s ∈ seen ++ [s] := List.mem_append_right _ (List.mem_singleton_self s)
  have inside {j : Nat} (hj : j ∈ seen ++ [s]) :
      position key (seen ++ [s]) j < d'.graph.nodes.length := by
    rw [shown.length_nodes]
    exact position_lt hj
  have room : Fits capacity d'.graph.nodes.length (d'.graph.edges.length + 1) ↔
      HasRoom capacity key (seen ++ [s]) (drawn ++ [(i, s)]) := by
    rw [HasRoom, shown.length_nodes, shown.length_edges, List.length_append,
      List.length_singleton]
  refine ((d'.graph.limited_addEdge (_, _) ⟨inside source, inside target⟩).congr room).bind id ?_
  rintro graph room ⟨hn, he⟩
  refine .ok room ⟨hn.trans shown.nodes, shown.length_byInstr, fun j => ?_, ?_, fun e he => ?_⟩
  · exact (Drawing.node?_graph ..).trans (shown.node? j)
  · rw [List.map_append, ← shown.edges]
    exact he
  · rcases List.mem_append.mp he with he | he
    · exact shown.seen_of_drawn e he
    · obtain rfl := List.mem_singleton.mp he
      exact ⟨source, target⟩

/-- The source keeps its node while edges to its successors are drawn. -/
theorem addSuccessors {successors : List Nat} (hk : Keyed capacity keying labels key)
    (hs : ∀ s ∈ successors, s < labels.length) (h : Shows keying labels key d seen drawn) {i : Nat}
    (hi : i ∈ seen) :
    Limited (HasRoom capacity key (seen ++ successors) (drawn ++ successors.map (i, ·)))
      (· = .capacity capacity)
      (Shows keying labels key · (seen ++ successors) (drawn ++ successors.map (i, ·)))
      (successors.foldlM (Drawing.addSuccessor keying labels (position key seen i)) d) := by
  refine Limited.foldlM
    (F := fun done => HasRoom capacity key (seen ++ done) (drawn ++ done.map (i, ·)))
    (W := fun done (d : Drawing capacity) => Shows keying labels key d (seen ++ done)
      (drawn ++ done.map (i, ·))) ?_ ?_ ?_
  · intro done s room
    simp only [List.map_append, ← List.append_assoc] at room
    exact room.of_append
  · simpa using ⟨h.hasRoom, h⟩
  · intro done s hm d' room shown
    have step := shown.addSuccessor hk (List.mem_append_left done hi) (hs s hm)
    rw [position_append hi] at step
    simpa [List.append_assoc] using step

/-- **One instruction**: it is mentioned with its successors, and the edges to them are drawn. -/
theorem addInstr {b : Body} (hk : Keyed capacity keying labels key) (hb : b.length = labels.length)
    (h : Shows keying labels key d seen drawn) {i : Nat} (hi : i < b.length) :
    Limited (HasRoom capacity key (seen ++ i :: b.successorsAt i)
        (drawn ++ (b.successorsAt i).map (i, ·))) (· = .capacity capacity)
      (Shows keying labels key · (seen ++ i :: b.successorsAt i)
        (drawn ++ (b.successorsAt i).map (i, ·)))
      (Drawing.addInstr keying labels (.of b) d i) := by
  rw [List.append_cons]
  refine (h.nodeOf hk (hb ▸ hi)).bind (fun room => ?_) ?_
  · exact room.mono (length_distinctBy_append_le key _ _) (by simp)
  · rintro ⟨source, d'⟩ - ⟨rfl, shown⟩
    exact shown.addSuccessors hk (fun s hs => hb ▸ b.lt_of_mem_successorsAt hs)
      (List.mem_append_right seen (List.mem_singleton_self i))

end Shows

/-- **All instructions**: the drawing of a body shows its mentions and its steps. -/
theorem limited_draw {b : Body} (hk : Keyed capacity keying labels key)
    (hb : b.length = labels.length) :
    Limited (HasRoom capacity key (mentions b) (steps b)) (· = .capacity capacity)
      (Shows keying labels key · (mentions b) (steps b))
      ((List.range labels.length).foldlM (Drawing.addInstr keying labels (.of b))
        (.blank capacity labels.length)) := by
  rw [mentions, steps, hb]
  refine Limited.foldlM
    (F := fun done => HasRoom capacity key (done.flatMap fun i => i :: b.successorsAt i)
      (done.flatMap fun i => (b.successorsAt i).map (i, ·)))
    (W := fun done (d : Drawing capacity) => Shows keying labels key d
      (done.flatMap fun i => i :: b.successorsAt i)
      (done.flatMap fun i => (b.successorsAt i).map (i, ·))) ?_ ?_ ?_
  · intro done i room
    rw [List.flatMap_append, List.flatMap_append] at room
    exact room.of_append
  · exact ⟨(shows_blank keying labels key).hasRoom, shows_blank keying labels key⟩
  · intro done i hi d room shown
    have step := shown.addInstr hk hb (hb ▸ List.mem_range.mp hi)
    simpa [List.flatMap_append] using step

/-- A finished drawing is the graph of the body with these labels. -/
theorem limited_ofLabels {b : Body} (hk : Keyed capacity keying labels key)
    (hb : b.length = labels.length)
    (graph : FlowGraph.ofLabels b keying labels =
      ⟨keying, (distinctBy key (mentions b)).map (labelAt labels), (steps b).map fun e =>
        (position key (mentions b) e.1, position key (mentions b) e.2)⟩) :
    Limited (Fits capacity (FlowGraph.ofLabels b keying labels).labels.length
        (FlowGraph.ofLabels b keying labels).edges.length) (· = .capacity capacity)
      (· = FlowGraph.ofLabels b keying labels)
      (do
        let d ← (List.range labels.length).foldlM (Drawing.addInstr keying labels (.of b))
          (.blank capacity labels.length)
        return ⟨keying, d.graph.nodes, d.graph.edges⟩) := by
  rw [graph]
  refine ((limited_draw hk hb).congr ?_).bind id fun d room shown => .ok room ?_
  · simp only [List.length_map]
  · rw [shown.nodes, shown.edges]

end Shows

/-- **The graph of a body** is drawn without a trap exactly if there is room for it. -/
theorem flowGraph_eq (capacity : Nat) (b : Body) (keying : NodeKeying) :
    flowGraph capacity (.of b) keying =
      if Fits capacity (FlowGraph.build b keying).value.labels.length
          (FlowGraph.build b keying).value.edges.length then
        .ok (FlowGraph.build b keying).value
      else
        .error (.capacity capacity) := by
  have written : (HostBody.of b).instrs.mapM (·.text) = .ok (b.instrs.map (·.text.value)) := by
    rw [HostBody.of, List.mapM_map]
    exact mapM_eq_ok fun _ _ => rfl
  refine Limited.eq_ite ?_
  rw [flowGraph, FlowGraph.build, Logged.value_bind, Logged.value_mapM, run_bind written]
  simp only [Logged.value_pure]
  generalize hl : (b.instrs.map (·.text.value)).map escapeLabel = labels
  have hb : b.length = labels.length := by
    rw [← hl, List.length_map, List.length_map, Body.length]
  cases keying with
  | label =>
    refine limited_ofLabels (Drawing.keyed_label labels) hb ?_
    rw [map_distinctBy]
    rfl
  | instruction =>
    refine limited_ofLabels (Drawing.keyed_instruction labels) hb ?_
    simp only [← distinct_eq_distinctBy, position, List.map_id]
    rfl

end PermissionAudit.Machine
