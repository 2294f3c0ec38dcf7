import Mathlib.Data.List.Nodup
import Mathlib.Tactic.Tauto
import PermissionAudit.Program.CallGraph
import PermissionAudit.Proofs.Sequence.Checked
import PermissionAudit.Sequence.Distinct

/-!
What a call graph records. A graph represents the declared methods and a list of
calls when its nodes are the declared names and then the callees, each once and
in order of first mention, and its edges hold exactly the calls, one edge for
each pair of nodes. Adding a call to the graph adds it to the list.
-/

namespace PermissionAudit.CallGraph

/-- A call by names, with the offset of the calling instruction. -/
structure Call where
  caller : String
  callee : String
  offset : Nat
deriving DecidableEq

/-- The name of the node at a position. -/
def nameAt (g : CallGraph) (position : Nat) : Option String := g.nodes[position]?.map (·.name)

/-- Some edge between nodes of the given names has the offset. -/
def HasCall (g : CallGraph) (caller callee : String) (offset : Nat) : Prop :=
  ∃ e ∈ g.edges, g.nameAt e.source = some caller ∧ g.nameAt e.target = some callee ∧
    offset ∈ e.offsets

/-- Edges are ordered by source, then by target. -/
def Edge.Before (e f : Edge) : Prop :=
  e.source < f.source ∨ (e.source = f.source ∧ e.target < f.target)

/-! ## Edges -/

@[simp] theorem mem_insertOffset {offset o : Nat} {offsets : List Nat} :
    o ∈ insertOffset offset offsets ↔ o = offset ∨ o ∈ offsets := by
  induction offsets with
  | nil => simp [insertOffset]
  | cons first rest ih =>
    rw [insertOffset]
    split
    · simp
    · split
      · next heq => simp [heq]
      · simp only [List.mem_cons, ih]
        exact or_left_comm

/-- An edge after an insertion is an old one, or joins the given nodes and has the offset. -/
theorem mem_insertCall {source target offset : Nat} {edges : List Edge} {e : Edge}
    (h : e ∈ insertCall source target offset edges) :
    e ∈ edges ∨ (e.source = source ∧ e.target = target ∧ offset ∈ e.offsets) := by
  induction edges with
  | nil =>
    obtain rfl : e = _ := by simpa [insertCall] using h
    exact .inr ⟨rfl, rfl, by simp⟩
  | cons first rest ih =>
    rw [insertCall] at h
    split at h
    · next hf =>
      rcases List.mem_cons.mp h with rfl | h
      · exact .inr ⟨hf.1.symm, hf.2.symm, by simp⟩
      · exact .inl (by simp [h])
    · split at h
      · rcases List.mem_cons.mp h with rfl | h
        · exact .inr ⟨rfl, rfl, by simp⟩
        · exact .inl h
      · rcases List.mem_cons.mp h with rfl | h
        · exact .inl (by simp)
        · exact (ih h).imp_left fun h => by simp [h]

/-- Some edge between the given positions has the offset. -/
def Recorded (edges : List Edge) (source target offset : Nat) : Prop :=
  ∃ e ∈ edges, e.source = source ∧ e.target = target ∧ offset ∈ e.offsets

@[simp] theorem not_recorded_nil {s t o : Nat} : ¬ Recorded [] s t o := by
  simp [Recorded]

@[simp] theorem recorded_cons {e : Edge} {rest : List Edge} {s t o : Nat} :
    Recorded (e :: rest) s t o ↔
      (e.source = s ∧ e.target = t ∧ o ∈ e.offsets) ∨ Recorded rest s t o := by
  simp [Recorded]

theorem hasCall_iff_recorded {g : CallGraph} {caller callee : String} {offset : Nat} :
    g.HasCall caller callee offset ↔
      ∃ source target, g.nameAt source = some caller ∧ g.nameAt target = some callee ∧
        Recorded g.edges source target offset := by
  constructor
  · rintro ⟨e, he, hs, ht, ho⟩
    exact ⟨e.source, e.target, hs, ht, e, he, rfl, rfl, ho⟩
  · rintro ⟨source, target, hs, ht, e, he, rfl, rfl, ho⟩
    exact ⟨e, he, hs, ht, ho⟩

/-- An insertion records the given call and keeps the others. -/
theorem recorded_insertCall {source target offset : Nat} {edges : List Edge} {s t o : Nat} :
    Recorded (insertCall source target offset edges) s t o ↔
      Recorded edges s t o ∨ (source = s ∧ target = t ∧ o = offset) := by
  induction edges with
  | nil => simp [insertCall]
  | cons e rest ih =>
    rw [insertCall]
    split
    · next he =>
      obtain ⟨rfl, rfl⟩ := he
      simp only [recorded_cons, mem_insertOffset]
      tauto
    · split
      · rw [recorded_cons, List.mem_singleton]
        exact or_comm
      · rw [recorded_cons, ih, recorded_cons, or_assoc]

theorem insertCall_sorted {source target offset : Nat} {edges : List Edge}
    (h : edges.Pairwise Edge.Before) :
    (insertCall source target offset edges).Pairwise Edge.Before := by
  induction edges with
  | nil => simp [insertCall]
  | cons e rest ih =>
    obtain ⟨he, hr⟩ := List.pairwise_cons.mp h
    rw [insertCall]
    split
    · exact List.pairwise_cons.mpr ⟨fun f hf => he f hf, hr⟩
    · split
      · next hlt =>
        refine List.pairwise_cons.mpr ⟨fun f hf => ?_, h⟩
        rcases List.mem_cons.mp hf with rfl | hf
        · exact hlt
        · have := he f hf
          simp only [Edge.Before] at this ⊢
          omega
      · next hne hnlt =>
        refine List.pairwise_cons.mpr ⟨fun f hf => ?_, ih hr⟩
        rcases mem_insertCall hf with hf | ⟨hs, ht, _⟩
        · exact he f hf
        · -- neither equal to the first edge nor before it
          simp only [Edge.Before, hs, ht]
          omega

/-! ## Nodes -/

theorem nameAt_of_find? {g : CallGraph} {name : String} {position : Nat}
    (h : g.find? name = some position) : g.nameAt position = some name := by
  have found := List.of_findIdx?_eq_some h
  cases hn : g.nodes[position]? with
  | none => simp [hn] at found
  | some node =>
    have : node.name = name := by simpa [hn] using found
    simp [nameAt, hn, this]

theorem find?_eq_none_iff {g : CallGraph} {name : String} :
    g.find? name = none ↔ name ∉ g.nodes.map (·.name) := by
  simp [find?]

theorem nameAt_inj {g : CallGraph} (h : (g.nodes.map (·.name)).Nodup) {i j : Nat} {name : String}
    (hi : g.nameAt i = some name) (hj : g.nameAt j = some name) : i = j := by
  rw [nameAt, ← List.getElem?_map] at hi hj
  exact (List.getElem?_inj (List.getElem?_eq_some_iff.mp hi).1 h).mp (hi.trans hj.symm)

theorem nameAt_of_prefix {g g' : CallGraph} (h : g.nodes <+: g'.nodes) {i : Nat} {name : String}
    (hi : g.nameAt i = some name) : g'.nameAt i = some name := by
  obtain ⟨node, hn, rfl⟩ := Option.map_eq_some_iff.mp hi
  rw [nameAt, getElem?_of_prefix h hn]
  rfl

theorem intern_known {g : CallGraph} {name : String} (status : Status)
    (h : name ∈ g.nodes.map (·.name)) :
    (g.intern name status).2 = g ∧ g.nameAt (g.intern name status).1 = some name := by
  cases hf : g.find? name with
  | none => exact absurd h (find?_eq_none_iff.mp hf)
  | some position =>
    rw [intern, hf]
    exact ⟨rfl, nameAt_of_find? hf⟩

theorem intern_new {g : CallGraph} {name : String} (status : Status)
    (h : name ∉ g.nodes.map (·.name)) :
    g.intern name status =
      (g.nodes.length, { g with nodes := g.nodes ++ [⟨name, status⟩] }) := by
  rw [intern, find?_eq_none_iff.mpr h]

/-! ## Graphs that represent calls -/

/-- The node of a name: declared names are part of the program. -/
def nodeOf (declared : List String) (name : String) : Node :=
  ⟨name, if name ∈ declared then .app else .external⟩

/-- Nodes, edges and offsets are those of the declared names and the calls. -/
structure Represents (g : CallGraph) (declared : List String) (calls : List Call) : Prop where
  nodes_eq : g.nodes = (distinct (declared ++ calls.map (·.callee))).map (nodeOf declared)
  sorted : g.edges.Pairwise Edge.Before
  /-- Every edge comes from a call. -/
  edge_call : ∀ e ∈ g.edges, ∃ call ∈ calls, g.nameAt e.source = some call.caller ∧
    g.nameAt e.target = some call.callee ∧ call.offset ∈ e.offsets
  hasCall_iff : ∀ caller callee offset,
    g.HasCall caller callee offset ↔ ⟨caller, callee, offset⟩ ∈ calls

namespace Represents

variable {g : CallGraph} {declared : List String} {calls : List Call}

theorem names_eq (h : g.Represents declared calls) :
    g.nodes.map (·.name) = distinct (declared ++ calls.map (·.callee)) := by
  rw [h.nodes_eq, List.map_map]
  exact List.map_id _

theorem names_nodup (h : g.Represents declared calls) : (g.nodes.map (·.name)).Nodup := by
  rw [h.names_eq]
  exact nodup_distinct _

theorem mem_nodes_iff (h : g.Represents declared calls) {node : Node} :
    node ∈ g.nodes ↔
      (node.name ∈ declared ∨ ∃ call ∈ calls, call.callee = node.name) ∧
        node = nodeOf declared node.name := by
  rw [h.nodes_eq, List.mem_map]
  constructor
  · rintro ⟨name, hn, rfl⟩
    exact ⟨by simpa [nodeOf] using hn, rfl⟩
  · rintro ⟨hn, heq⟩
    exact ⟨node.name, by simpa using hn, heq.symm⟩

/-- At most one edge joins two nodes. -/
theorem edges_unique (h : g.Represents declared calls) :
    g.edges.Pairwise fun e f => (e.source, e.target) ≠ (f.source, f.target) := by
  refine h.sorted.imp fun {e f} before heq => ?_
  obtain ⟨hs, ht⟩ := Prod.mk.inj heq
  simp only [Edge.Before] at before
  omega

/-- Taking in the target of a call: at most one external node is added, at the end. -/
theorem intern_callee (h : g.Represents declared calls) (callee : String) :
    (g.intern callee .external).2.edges = g.edges ∧
      (g.intern callee .external).2.nodes =
        (distinct (declared ++ calls.map (·.callee) ++ [callee])).map (nodeOf declared) ∧
      g.nodes <+: (g.intern callee .external).2.nodes ∧
      (g.intern callee .external).2.nameAt (g.intern callee .external).1 = some callee := by
  rw [distinct_append_singleton]
  by_cases hk : callee ∈ declared ++ calls.map (·.callee)
  · have known : callee ∈ g.nodes.map (·.name) := by rw [h.names_eq]; exact mem_distinct.mpr hk
    obtain ⟨hg, hp⟩ := intern_known .external known
    rw [if_pos hk, hg]
    exact ⟨rfl, h.nodes_eq, List.prefix_refl _, hp⟩
  · have fresh : callee ∉ g.nodes.map (·.name) := by
      rw [h.names_eq, mem_distinct]
      exact hk
    have external : nodeOf declared callee = ⟨callee, .external⟩ := by
      have : callee ∉ declared := fun hd => hk (by simp [hd])
      simp [nodeOf, this]
    rw [if_neg hk, intern_new .external fresh, List.map_append, ← h.nodes_eq]
    refine ⟨rfl, ?_, List.prefix_append _ _, ?_⟩
    · simp [external]
    · simp [nameAt]

/-- **One call**: the graph after adding it represents the calls with it at the end, and its
nodes keep their positions. -/
theorem addCall (h : g.Represents declared calls) {source : Nat} (call : Call)
    (hs : g.nameAt source = some call.caller) :
    (addCall source call.offset g call.callee).Represents declared (calls ++ [call]) ∧
      g.nodes <+: (CallGraph.addCall source call.offset g call.callee).nodes := by
  obtain ⟨hedges, hnodes, hprefix, htarget⟩ := h.intern_callee call.callee
  generalize hi : g.intern call.callee .external = interned at *
  obtain ⟨target, g₁⟩ := interned
  have hadd : CallGraph.addCall source call.offset g call.callee =
      { g₁ with edges := insertCall source target call.offset g.edges } := by
    simp only [CallGraph.addCall, hi, ← hedges]
  rw [hadd]
  have name_kept {i : Nat} {name : String} (hn : g.nameAt i = some name) :
      g₁.nameAt i = some name := nameAt_of_prefix hprefix hn
  refine ⟨⟨?nodes, insertCall_sorted h.sorted, ?edge, ?call⟩, hprefix⟩
  case nodes => simpa [List.append_assoc] using hnodes
  case edge =>
    intro e he
    rcases mem_insertCall he with he | ⟨rfl, rfl, ho⟩
    · obtain ⟨old, hold, hn, hm, ho⟩ := h.edge_call e he
      exact ⟨old, by simp [hold], name_kept hn, name_kept hm, ho⟩
    · exact ⟨call, by simp, name_kept hs, htarget, ho⟩
  case call =>
    intro caller callee offset
    rw [hasCall_iff_recorded, List.mem_append, List.mem_singleton]
    constructor
    · rintro ⟨s, t, hcaller, hcallee, recorded⟩
      rcases recorded_insertCall.mp recorded with ⟨e, he, rfl, rfl, ho⟩ | ⟨rfl, rfl, rfl⟩
      · -- the ends of an old edge have kept their names
        obtain ⟨old, -, hn, hm, -⟩ := h.edge_call e he
        obtain rfl := Option.some.inj ((name_kept hn).symm.trans hcaller)
        obtain rfl := Option.some.inj ((name_kept hm).symm.trans hcallee)
        exact .inl ((h.hasCall_iff ..).mp ⟨e, he, hn, hm, ho⟩)
      · obtain rfl := Option.some.inj ((name_kept hs).symm.trans hcaller)
        obtain rfl := Option.some.inj (htarget.symm.trans hcallee)
        exact .inr rfl
    · rintro (hmem | rfl)
      · obtain ⟨e, he, hn, hm, ho⟩ := (h.hasCall_iff ..).mpr hmem
        exact ⟨e.source, e.target, name_kept hn, name_kept hm,
          recorded_insertCall.mpr (.inl ⟨e, he, rfl, rfl, ho⟩)⟩
      · exact ⟨source, target, name_kept hs, htarget,
          recorded_insertCall.mpr (.inr ⟨rfl, rfl, rfl⟩)⟩

/-- The methods that a method calls, by name. -/
theorem mem_calleesOf_iff (h : g.Represents declared calls) {caller callee : String} :
    callee ∈ g.calleesOf caller ↔ ∃ offset, ⟨caller, callee, offset⟩ ∈ calls := by
  simp only [← h.hasCall_iff]
  rw [calleesOf]
  cases hf : g.find? caller with
  | none =>
    have hno := find?_eq_none_iff.mp hf
    refine ⟨fun hc => by simp at hc, ?_⟩
    rintro ⟨offset, e, -, hn, -, -⟩
    obtain ⟨node, hnode, rfl⟩ := Option.map_eq_some_iff.mp hn
    exact absurd (List.mem_map_of_mem (List.mem_of_getElem? hnode)) hno
  | some position =>
    have hp := nameAt_of_find? hf
    simp only [List.mem_mergeSort, List.mem_filterMap, List.mem_filter, decide_eq_true_eq]
    constructor
    · rintro ⟨e, ⟨he, rfl⟩, hm⟩
      obtain ⟨call, -, -, -, ho⟩ := h.edge_call e he
      exact ⟨call.offset, e, he, hp, hm, ho⟩
    · rintro ⟨offset, e, he, hn, hm, -⟩
      exact ⟨e, ⟨he, nameAt_inj h.names_nodup hn hp⟩, hm⟩

end Represents

end PermissionAudit.CallGraph
