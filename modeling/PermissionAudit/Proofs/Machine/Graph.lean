import PermissionAudit.Proofs.Machine.Basic

/-!
Graphs whose nodes and edges are numbered by words. The greatest word numbers
nothing, since it ends lists of edges; a graph in which all other words are
taken is full, and adding to it ends in a trap.
-/

namespace PermissionAudit.Machine

/-- How many nodes, and how many edges, words of 32 bits can number. -/
def graphCapacity : Nat := 2 ^ 32 - 1

/-- There is room for so many nodes, and for so many edges. -/
structure Fits (capacity nodes edges : Nat) : Prop where
  nodes_le : nodes ≤ capacity
  edges_le : edges ≤ capacity

instance (capacity nodes edges : Nat) : Decidable (Fits capacity nodes edges) :=
  decidable_of_iff (nodes ≤ capacity ∧ edges ≤ capacity)
    ⟨fun h => ⟨h.1, h.2⟩, fun h => ⟨h.nodes_le, h.edges_le⟩⟩

theorem Fits.mono {capacity nodes edges nodes' edges' : Nat} (h : Fits capacity nodes' edges')
    (hn : nodes ≤ nodes') (he : edges ≤ edges') : Fits capacity nodes edges :=
  ⟨Nat.le_trans hn h.nodes_le, Nat.le_trans he h.edges_le⟩

/-- A graph with room for `capacity` nodes and as many edges, which join nodes by number. -/
structure Graph (capacity : Nat) (ν ε : Type) (ends : ε → Nat × Nat) where
  nodes : List ν
  edges : List ε
  fits : Fits capacity nodes.length edges.length
  joined : ∀ e ∈ edges, (ends e).1 < nodes.length ∧ (ends e).2 < nodes.length

namespace Graph

variable {capacity : Nat} {ν ε : Type} {ends : ε → Nat × Nat}

def empty (capacity : Nat) (ν ε : Type) (ends : ε → Nat × Nat) : Graph capacity ν ε ends :=
  ⟨[], [], ⟨Nat.zero_le _, Nat.zero_le _⟩, nofun⟩

/-- Adds a node, and returns its number. -/
def addNode (g : Graph capacity ν ε ends) (n : ν) : Run (Nat × Graph capacity ν ε ends) :=
  if room : g.nodes.length + 1 ≤ capacity then
    .ok (g.nodes.length,
      { g with
        nodes := g.nodes ++ [n]
        fits := ⟨by rwa [List.length_append], g.fits.edges_le⟩
        joined := fun e he => by
          have := g.joined e he
          rw [List.length_append]
          omega })
  else
    .error (.capacity capacity)

/-- Adds an edge between nodes of the graph. -/
def addEdge (g : Graph capacity ν ε ends) (e : ε) : Run (Graph capacity ν ε ends) :=
  if room : g.edges.length + 1 ≤ capacity then
    if inside : (ends e).1 < g.nodes.length ∧ (ends e).2 < g.nodes.length then
      .ok
        { g with
          edges := g.edges ++ [e]
          fits := ⟨g.fits.nodes_le, by rwa [List.length_append]⟩
          joined := fun e' he => by
            rcases List.mem_append.mp he with he | he
            · exact g.joined e' he
            · exact List.mem_singleton.mp he ▸ inside }
    else
      .error (.index (max (ends e).1 (ends e).2) g.nodes.length)
  else
    .error (.capacity capacity)

/-- A node is added at the end, if there is room for it. -/
theorem limited_addNode (g : Graph capacity ν ε ends) (n : ν) :
    Limited (Fits capacity (g.nodes.length + 1) g.edges.length) (· = .capacity capacity)
      (fun added => added.1 = g.nodes.length ∧ added.2.nodes = g.nodes ++ [n] ∧
        added.2.edges = g.edges) (g.addNode n) := by
  rw [addNode]
  split
  · next room => exact .ok ⟨room, g.fits.edges_le⟩ ⟨rfl, rfl, rfl⟩
  · next full => exact .trap (fun h => full h.nodes_le) rfl

/-- An edge between nodes of the graph is added at the end, if there is room for it. -/
theorem limited_addEdge (g : Graph capacity ν ε ends) (e : ε)
    (inside : (ends e).1 < g.nodes.length ∧ (ends e).2 < g.nodes.length) :
    Limited (Fits capacity g.nodes.length (g.edges.length + 1)) (· = .capacity capacity)
      (fun added => added.nodes = g.nodes ∧ added.edges = g.edges ++ [e]) (g.addEdge e) := by
  rw [addEdge]
  split
  · next room => exact .ok ⟨g.fits.nodes_le, room⟩ ⟨rfl, rfl⟩
  · next full => exact .trap (fun h => full h.edges_le) rfl

/-- Edges between nodes of the graph are added in order, if there is room for all of them. -/
theorem limited_addEdges (g : Graph capacity ν ε ends) (es : List ε)
    (inside : ∀ e ∈ es, (ends e).1 < g.nodes.length ∧ (ends e).2 < g.nodes.length) :
    Limited (Fits capacity g.nodes.length (g.edges.length + es.length)) (· = .capacity capacity)
      (fun added => added.nodes = g.nodes ∧ added.edges = g.edges ++ es)
      (es.foldlM addEdge g) := by
  refine Limited.foldlM (F := fun done => Fits capacity g.nodes.length
    (g.edges.length + done.length)) (W := fun done (added : Graph capacity ν ε ends) =>
      added.nodes = g.nodes ∧ added.edges = g.edges ++ done) ?_ ?_ ?_
  · intro done e h
    refine h.mono (Nat.le_refl _) ?_
    rw [List.length_append]
    omega
  · exact ⟨g.fits, rfl, (List.append_nil _).symm⟩
  · rintro done e he g' - ⟨nodes, edges⟩
    refine ((g'.limited_addEdge e (nodes ▸ inside e he)).imp ?_).congr ?_
    · rintro added ⟨hn, hedges⟩
      exact ⟨hn.trans nodes, by rw [hedges, edges, List.append_assoc]⟩
    · rw [nodes, edges, List.length_append, List.length_append, List.length_singleton,
        Nat.add_assoc]

end Graph

end PermissionAudit.Machine
