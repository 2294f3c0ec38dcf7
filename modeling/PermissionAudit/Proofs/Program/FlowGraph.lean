import Mathlib.Algebra.Order.Ring.Int
import PermissionAudit.Proofs.Machine.FlowGraph
import PermissionAudit.Proofs.Sequence.FirstOccurrence

/-!
What a flow graph shows. A graph is exact for a key of instructions if it has one
node for each key, in the order in which the keys are first mentioned, and leads
from each instruction to each of its successors. Keyed by instruction, the key is
the position; keyed by label, it is the text, since labels of different texts
differ. Both graphs show the same edges between labels, and the second has the
nodes of the first with one label merged.
-/

namespace PermissionAudit

theorem Body.fields_of_make {instrs : List BodyInstr} {successors : List (List Nat)} {b : Body}
    (h : Body.make instrs successors = .ok b) : b.instrs = instrs ∧ b.successors = successors := by
  unfold Body.make at h
  split at h
  · split at h
    · cases h
    · cases h
      exact ⟨rfl, rfl⟩
  · cases h

/-! ## Labels -/

section Escaping

/-- The characters of a text with a backslash before every double quote. -/
def escapeChars (cs : List Char) : List Char :=
  cs.flatMap fun c => if c = '"' then ['\\', '"'] else [c]

theorem escapeChars_quote (rest : List Char) :
    escapeChars ('"' :: rest) = '\\' :: '"' :: escapeChars rest := rfl

theorem escapeChars_other {c : Char} (h : c ≠ '"') (rest : List Char) :
    escapeChars (c :: rest) = c :: escapeChars rest := by
  simp [escapeChars, h]

/-- No quote stands first: it would have a backslash before it. -/
theorem escapeChars_ne_quote (cs rest : List Char) : escapeChars cs ≠ '"' :: rest := by
  cases cs with
  | nil => nofun
  | cons c cs =>
    by_cases hc : c = '"'
    · subst hc
      rw [escapeChars_quote]
      simp
    · rw [escapeChars_other hc]
      simp [hc]

theorem escapeChars_eq_nil {cs : List Char} (h : escapeChars cs = []) : cs = [] := by
  cases cs with
  | nil => rfl
  | cons c cs =>
    by_cases hc : c = '"'
    · simp [hc, escapeChars_quote] at h
    · simp [escapeChars_other hc] at h

theorem escapeChars_injective : Function.Injective escapeChars := by
  intro cs
  induction cs with
  | nil =>
    intro ds h
    exact (escapeChars_eq_nil h.symm).symm
  | cons c cs ih =>
    intro ds h
    cases ds with
    | nil => exact escapeChars_eq_nil h
    | cons d ds =>
      -- a backslash that is a character of its own is not followed by a quote
      by_cases hc : c = '"' <;> by_cases hd : d = '"'
      · subst hc hd
        simp only [escapeChars_quote, List.cons.injEq, true_and] at h
        rw [ih h]
      · subst hc
        rw [escapeChars_quote, escapeChars_other hd, List.cons.injEq] at h
        exact absurd h.2.symm (escapeChars_ne_quote ds _)
      · subst hd
        rw [escapeChars_quote, escapeChars_other hc, List.cons.injEq] at h
        exact absurd h.2 (escapeChars_ne_quote cs _)
      · rw [escapeChars_other hc, escapeChars_other hd, List.cons.injEq] at h
        rw [h.1, ih h.2]

theorem escapeLabel_injective : Function.Injective escapeLabel := by
  intro s t h
  have chars : escapeChars s.toList = escapeChars t.toList := String.ofList_injective h
  exact String.toList_injective (escapeChars_injective chars)

end Escaping

namespace FlowGraph

/-! ## Exact graphs -/

section Exact

variable {κ : Type} {b : Body} {key : Nat → κ} {label : κ → String} {g : FlowGraph}
  {nodes : List κ}

/-- The graph has one node for each key of a mentioned instruction, in order of first mention,
and one edge for each instruction and successor, between the nodes of their keys. -/
structure Exact (b : Body) (key : Nat → κ) (label : κ → String) (g : FlowGraph)
    (nodes : List κ) : Prop where
  first_mentions : FirstOccurrences (GivenAt (some ∘ key) (mentions b)) nodes
  labels : g.labels = nodes.map label
  edges : List.Forall₂ (fun e s => nodes[e.1]? = some (key s.1) ∧ nodes[e.2]? = some (key s.2))
    g.edges (steps b)

/-- The nodes of an edge have the labels of the keys they stand for. -/
theorem Exact.edgeLabels (h : Exact b key label g nodes) :
    g.edgeLabels = (steps b).map fun e => (label (key e.1), label (key e.2)) := by
  have labelled {n : Nat} {x : κ} (hn : nodes[n]? = some x) : labelAt g.labels n = label x := by
    simp [labelAt, h.labels, hn]
  rw [FlowGraph.edgeLabels, ← List.forall₂_eq_eq_eq, List.forall₂_map_left_iff,
    List.forall₂_map_right_iff]
  refine h.edges.imp ?_
  rintro e s ⟨source, target⟩
  rw [labelled source, labelled target]

theorem Exact.length_edges (h : Exact b key label g nodes) : g.edges.length = (steps b).length :=
  h.edges.length_eq

end Exact

/-! ## Mentions and steps -/

section Steps

variable {b : Body} {i s : Nat}

theorem mem_mentions : i ∈ mentions b ↔ i < b.length := by
  rw [mentions, List.mem_flatMap]
  constructor
  · rintro ⟨j, hj, hi⟩
    rcases List.mem_cons.mp hi with rfl | hi
    · exact List.mem_range.mp hj
    · exact b.lt_of_mem_successorsAt hi
  · intro hi
    exact ⟨i, List.mem_range.mpr hi, List.mem_cons_self⟩

theorem mentioned_of_mem_steps (h : (i, s) ∈ steps b) : i ∈ mentions b ∧ s ∈ mentions b := by
  obtain ⟨j, hj, hs⟩ := List.mem_flatMap.mp h
  obtain ⟨t, ht, same⟩ := List.mem_map.mp hs
  obtain ⟨rfl, rfl⟩ := Prod.mk.inj same
  exact ⟨mem_mentions.mpr (List.mem_range.mp hj), mem_mentions.mpr (b.lt_of_mem_successorsAt ht)⟩

/-- The successor lists, read position by position. -/
theorem map_successorsAt (b : Body) : (List.range b.length).map b.successorsAt = b.successors := by
  apply List.ext_getElem
  · simp [Body.length, b.length_successors]
  · intro k _ hk
    simp [Body.successorsAt, hk]

theorem length_steps (b : Body) : (steps b).length = (b.successors.map List.length).sum := by
  rw [← map_successorsAt b, List.map_map, steps, List.length_flatMap]
  simp [Function.comp_def]

end Steps

/-! ## The two keyings -/

section Keyings

variable (b : Body)

/-- The text of the instruction at position `i`. -/
def textAt (instrs : List BodyInstr) (i : Nat) : String := (instrs.map (·.text.value))[i]?.getD ""

theorem labelAt_escaped (instrs : List BodyInstr) :
    labelAt ((instrs.map (·.text.value)).map escapeLabel) =
      fun i => escapeLabel (textAt instrs i) := by
  funext i
  rw [labelAt, textAt, List.getElem?_map]
  cases (instrs.map (·.text.value))[i]? with
  | none => rfl
  | some text => rfl

theorem value_build (keying : NodeKeying) :
    (build b keying).value = ofLabels b keying ((b.instrs.map (·.text.value)).map escapeLabel) := by
  rw [build, Logged.value_bind, Logged.value_mapM]
  rfl

/-- **By instruction**: the key of an instruction is its position. -/
theorem exact_instruction :
    Exact b id (fun i => escapeLabel (textAt b.instrs i)) (build b .instruction).value
      (distinct (mentions b)) := by
  have mentioned := firstOccurrences_map id (mentions b)
  rw [List.map_id] at mentioned
  rw [value_build, ofLabels, labelAt_escaped]
  refine ⟨mentioned, rfl, ?_⟩
  rw [List.forall₂_map_left_iff, List.forall₂_same]
  rintro ⟨i, s⟩ hs
  obtain ⟨source, target⟩ := mentioned_of_mem_steps hs
  exact ⟨List.getElem?_idxOf (mem_distinct.mpr source),
    List.getElem?_idxOf (mem_distinct.mpr target)⟩

/-- The labels of mentioned instructions, without repetitions, are those of their texts. -/
theorem distinct_map_label (xs : List Nat) :
    distinct (xs.map fun i => escapeLabel (textAt b.instrs i)) =
      (distinct (xs.map (textAt b.instrs))).map escapeLabel := by
  rw [map_distinct escapeLabel_injective, List.map_map]
  rfl

/-- The node with the label of a text stands for that text. -/
theorem getElem?_idxOf_escapeLabel {texts : List String} {t : String} (h : t ∈ texts) :
    texts[(texts.map escapeLabel).idxOf (escapeLabel t)]? = some t := by
  have found := List.getElem?_idxOf (List.mem_map_of_mem (f := escapeLabel) h)
  rw [List.getElem?_map] at found
  obtain ⟨u, hu, same⟩ := Option.map_eq_some_iff.mp found
  rw [hu, escapeLabel_injective same]

/-- **By label**: the key of an instruction is its text. -/
theorem exact_label :
    Exact b (textAt b.instrs) escapeLabel (build b .label).value
      (distinct ((mentions b).map (textAt b.instrs))) := by
  rw [value_build, ofLabels, labelAt_escaped, distinct_map_label]
  refine ⟨firstOccurrences_map _ _, rfl, ?_⟩
  rw [List.forall₂_map_left_iff, List.forall₂_same]
  rintro ⟨i, s⟩ hs
  obtain ⟨source, target⟩ := mentioned_of_mem_steps hs
  exact ⟨getElem?_idxOf_escapeLabel (mem_distinct.mpr (List.mem_map_of_mem source)),
    getElem?_idxOf_escapeLabel (mem_distinct.mpr (List.mem_map_of_mem target))⟩

/-- Merging the nodes that share a label leaves one node for each text. -/
theorem labels_label :
    (build b .label).value.labels = distinct (build b .instruction).value.labels := by
  rw [(exact_label b).labels, (exact_instruction b).labels, distinct_map_distinct,
    distinct_map_label]

/-- Either graph leads from the label of an instruction to the labels of its successors. -/
theorem edges_build (keying : NodeKeying) :
    (build b keying).value.edges.length = (steps b).length ∧
      (build b keying).value.edgeLabels = (steps b).map fun e =>
        (escapeLabel (textAt b.instrs e.1), escapeLabel (textAt b.instrs e.2)) := by
  cases keying with
  | label => exact ⟨(exact_label b).length_edges, (exact_label b).edgeLabels⟩
  | instruction => exact ⟨(exact_instruction b).length_edges, (exact_instruction b).edgeLabels⟩

theorem mem_distinct_mentions_texts {t : String} :
    t ∈ distinct ((mentions b).map (textAt b.instrs)) ↔
      ∃ instr ∈ b.instrs, instr.text.value = t := by
  rw [mem_distinct, List.mem_map]
  constructor
  · rintro ⟨i, hi, rfl⟩
    have hlt : i < b.instrs.length := mem_mentions.mp hi
    exact ⟨b.instrs[i], List.getElem_mem hlt, by simp [textAt, hlt]⟩
  · rintro ⟨instr, hm, rfl⟩
    obtain ⟨i, hi⟩ := List.mem_iff_getElem?.mp hm
    obtain ⟨hlt, -⟩ := List.getElem?_eq_some_iff.mp hi
    exact ⟨i, mem_mentions.mpr hlt, by simp [textAt, hi]⟩

theorem perm_distinct_mentions : (distinct (mentions b)).Perm (List.range b.length) := by
  rw [List.perm_ext_iff_of_nodup (nodup_distinct _) List.nodup_range]
  intro i
  rw [mem_distinct, mem_mentions, List.mem_range]

end Keyings

/-- **Exactness**: the graph of a body has, keyed by instruction, one node for each instruction
and, keyed by label, one node for each text; both have an edge for each instruction and successor,
show the same edges between labels, and come from one walk over the instructions, which ends
early only if there is no room for the graph. -/
theorem build_exact {instrs : List BodyInstr} {successors : List (List Nat)} {b : Body}
    (h : Body.make instrs successors = .ok b) :
    (∃ nodes : List Nat, nodes.Perm (List.range instrs.length) ∧
        Exact b id (fun i => escapeLabel (textAt instrs i)) (build b .instruction).value nodes) ∧
      (∃ texts : List String, (∀ t, t ∈ texts ↔ ∃ instr ∈ instrs, instr.text.value = t) ∧
        Exact b (textAt instrs) escapeLabel (build b .label).value texts) ∧
      Function.Injective escapeLabel ∧
      (∀ keying, (build b keying).value.edges.length = (successors.map List.length).sum ∧
        (build b keying).value.edgeLabels = (List.range instrs.length).flatMap (fun i =>
          (successors[i]?.getD []).map fun s =>
            (escapeLabel (textAt instrs i), escapeLabel (textAt instrs s))) ∧
        ∀ capacity, Machine.flowGraph capacity (.of b) keying =
          if Machine.Fits capacity (build b keying).value.labels.length
              (build b keying).value.edges.length then
            .ok (build b keying).value
          else
            .error (.capacity capacity)) ∧
      (build b .label).value.edgeLabels = (build b .instruction).value.edgeLabels ∧
      (build b .label).value.labels = distinct (build b .instruction).value.labels := by
  obtain ⟨rfl, rfl⟩ := Body.fields_of_make h
  refine ⟨⟨_, perm_distinct_mentions b, exact_instruction b⟩,
    ⟨_, fun _ => mem_distinct_mentions_texts b, exact_label b⟩, escapeLabel_injective, ?_, ?_,
    labels_label b⟩
  · intro keying
    obtain ⟨count, shown⟩ := edges_build b keying
    refine ⟨count.trans (length_steps b), ?_, fun capacity => ?_⟩
    · rw [shown, steps, List.map_flatMap]
      simp only [List.map_map]
      rfl
    · exact Machine.flowGraph_eq capacity b keying
  · rw [(edges_build b .label).2, (edges_build b .instruction).2]

/-- Three instructions, two of them with one text. -/
def sampleInstrs : List BodyInstr :=
  [⟨0, pure "nop", none⟩, ⟨1, pure "say \"\"", none⟩, ⟨2, pure "nop", none⟩]

/-- Nodes with one label are merged, and the edges between them stay. -/
theorem sampleInstrs_drawn : ∃ b, Body.make sampleInstrs [[2, 2], [1], [0]] = .ok b ∧
    (build b .instruction).value.labels.length = 3 ∧
    (build b .label).value.edges.length = 4 ∧
    (build b .label).value.edgeLabels = [("nop", "nop"), ("nop", "nop"),
      ("say \\\"\\\"", "say \\\"\\\""), ("nop", "nop")] := by
  obtain ⟨b, made⟩ : ∃ b, Body.make sampleInstrs [[2, 2], [1], [0]] = .ok b := ⟨_, rfl⟩
  obtain ⟨⟨nodes, all, exact_nodes⟩, -, -, edges, -, -⟩ := build_exact made
  obtain ⟨count, shown, -⟩ := edges .label
  refine ⟨b, made, ?_, count, ?_⟩
  · rw [exact_nodes.labels, List.length_map, all.length_eq]
    rfl
  · rw [shown]
    decide

end FlowGraph

end PermissionAudit
