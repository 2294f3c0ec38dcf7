import Mathlib.Algebra.Order.BigOperators.Group.Finset
import Mathlib.Data.List.AList
import Mathlib.Data.List.Chain
import PermissionAudit.Proofs.Program.Hierarchy

/-!
The search for the names below a class as a loop. A turn of the loop takes one
pending name off; a name not found before is found, and its children are pending.
Which name is taken is left open, so that runs may keep the pending names in any order.

Every run is counted exactly: each found name has brought its children once. Since only
names below the class are found, runs end; and since the children of a found name are
found or pending, a run that has ended has found all of them.
-/

namespace PermissionAudit.Hierarchy

/-! ## The loop -/

/-- The names found so far, and those still to be looked at. -/
structure Worklist where
  found : Finset String
  pending : Multiset String

/-- One turn of the loop. -/
inductive Turn (h : Hierarchy) : Worklist → Worklist → Prop where
  | known {found : Finset String} {rest : Multiset String} {name : String} :
    name ∈ found → Turn h ⟨found, name ::ₘ rest⟩ ⟨found, rest⟩
  | fresh {found : Finset String} {rest : Multiset String} {name : String} :
    name ∉ found → Turn h ⟨found, name ::ₘ rest⟩ ⟨insert name found, h.children name + rest⟩

/-- A number of turns, one after another. -/
inductive Turns (h : Hierarchy) : Nat → Worklist → Worklist → Prop where
  | none (w : Worklist) : Turns h 0 w w
  | snoc {n : Nat} {w v u : Worklist} : Turns h n w v → Turn h v u → Turns h (n + 1) w u

/-- Before the first turn the children of the class are pending. -/
def start (h : Hierarchy) (name : String) : Worklist := ⟨∅, h.children name⟩

/-- The children of a class, and once more those of each name below it. -/
def turnCount (h : Hierarchy) (name : String) : Nat :=
  (h.children name).length + ∑ below ∈ (h.descendants name).toFinset, (h.children below).length

variable {h : Hierarchy} {name : String}

theorem Turns.cons {n : Nat} {w v u : Worklist} (first : Turn h w v) (later : Turns h n v u) :
    Turns h (n + 1) w u := by
  induction later with
  | none v => exact .snoc (.none w) first
  | snoc _ last ih => exact .snoc (ih first) last

/-! ## What a turn keeps -/

/-- After `n` turns of the search below `name`. -/
structure Searched (h : Hierarchy) (name : String) (n : Nat) (w : Worklist) : Prop where
  found_below : ∀ other ∈ w.found, Relation.TransGen h.Below name other
  pending_below : ∀ other ∈ w.pending, Relation.TransGen h.Below name other
  children_met : ∀ child, h.Below name child → child ∈ w.found ∨ child ∈ w.pending
  closed : ∀ parent ∈ w.found, ∀ child, h.Below parent child →
    child ∈ w.found ∨ child ∈ w.pending
  /-- Every turn takes one name off, and names became pending in bulk. -/
  counted : n + w.pending.card =
    (h.children name).length + ∑ other ∈ w.found, (h.children other).length

theorem searched_start (h : Hierarchy) (name : String) : Searched h name 0 (h.start name) where
  found_below other ho := absurd ho (Finset.notMem_empty other)
  pending_below other ho := .single (mem_children_iff.mp (Multiset.mem_coe.mp ho))
  children_met child hc := .inr (Multiset.mem_coe.mpr (mem_children_iff.mpr hc))
  closed parent hp := absurd hp (Finset.notMem_empty parent)
  counted := by simp [start]

theorem Searched.turn {n : Nat} {w v : Worklist} (s : Searched h name n w) (t : Turn h w v) :
    Searched h name (n + 1) v := by
  cases t with
  | @known found rest top htop =>
    -- the name taken off stays met, since it was found before
    have met {child : String} (hc : child ∈ found ∨ child ∈ top ::ₘ rest) :
        child ∈ found ∨ child ∈ rest := by
      rcases hc with hc | hc
      · exact .inl hc
      · rcases Multiset.mem_cons.mp hc with rfl | hc
        · exact .inl htop
        · exact .inr hc
    refine ⟨s.found_below, ?_, ?_, ?_, ?_⟩
    · exact fun other ho => s.pending_below other (Multiset.mem_cons_of_mem ho)
    · exact fun child hc => met (s.children_met child hc)
    · exact fun parent hp child hc => met (s.closed parent hp child hc)
    · have before := s.counted
      simp only [Multiset.card_cons] at before ⊢
      omega
  | @fresh found rest top htop =>
    have below : Relation.TransGen h.Below name top :=
      s.pending_below top (Multiset.mem_cons_self top rest)
    have met {child : String} (hc : child ∈ found ∨ child ∈ top ::ₘ rest) :
        child ∈ insert top found ∨ child ∈ (h.children top : Multiset String) + rest := by
      rcases hc with hc | hc
      · exact .inl (Finset.mem_insert_of_mem hc)
      · rcases Multiset.mem_cons.mp hc with rfl | hc
        · exact .inl (Finset.mem_insert_self child found)
        · exact .inr (Multiset.mem_add.mpr (.inr hc))
    refine ⟨?_, ?_, ?_, ?_, ?_⟩
    · intro other ho
      rcases Finset.mem_insert.mp ho with rfl | ho
      · exact below
      · exact s.found_below other ho
    · intro other ho
      rcases Multiset.mem_add.mp ho with ho | ho
      · exact below.tail (mem_children_iff.mp (Multiset.mem_coe.mp ho))
      · exact s.pending_below other (Multiset.mem_cons_of_mem ho)
    · exact fun child hc => met (s.children_met child hc)
    · intro parent hp child hc
      rcases Finset.mem_insert.mp hp with rfl | hp
      · -- the children of the name just found are pending
        have pending : child ∈ (h.children parent : Multiset String) :=
          Multiset.mem_coe.mpr (mem_children_iff.mpr hc)
        exact .inr (Multiset.mem_add.mpr (.inl pending))
      · exact met (s.closed parent hp child hc)
    · have before := s.counted
      simp only [Multiset.card_cons] at before
      simp only [Finset.sum_insert htop, Multiset.card_add, Multiset.coe_card]
      omega

theorem searched_of_turns {n : Nat} {w : Worklist} (run : Turns h n (h.start name) w) :
    Searched h name n w := by
  generalize hs : h.start name = s at run
  induction run with
  | none w => exact hs ▸ searched_start h name
  | snoc _ last ih => exact (ih hs).turn last

/-! ## Where runs end -/

theorem Searched.found_subset {n : Nat} {w : Worklist} (s : Searched h name n w) :
    w.found ⊆ (h.descendants name).toFinset := by
  intro other ho
  exact List.mem_toFinset.mpr (mem_descendants_iff.mpr (s.found_below other ho))

theorem Searched.turns_le {n : Nat} {w : Worklist} (s : Searched h name n w) :
    n + w.pending.card ≤ h.turnCount name := by
  rw [s.counted, turnCount]
  exact Nat.add_le_add_left (Finset.sum_le_sum_of_subset s.found_subset) _

/-- When nothing is pending, the found names are closed under links. -/
theorem Searched.found_of_ended {n : Nat} {w : Worklist} (s : Searched h name n w)
    (ended : w.pending = 0) : w.found = (h.descendants name).toFinset := by
  have only {other : String} (ho : other ∈ w.found ∨ other ∈ w.pending) : other ∈ w.found := by
    rcases ho with ho | ho
    · exact ho
    · exact absurd (ended ▸ ho) (Multiset.notMem_zero other)
  refine Finset.Subset.antisymm s.found_subset fun other ho => ?_
  have path := mem_descendants_iff.mp (List.mem_toFinset.mp ho)
  induction path with
  | single hb => exact only (s.children_met _ hb)
  | tail path hb ih =>
    have parent := ih (List.mem_toFinset.mpr (mem_descendants_iff.mpr path))
    exact only (s.closed _ parent _ hb)

theorem Searched.turns_of_ended {n : Nat} {w : Worklist} (s : Searched h name n w)
    (ended : w.pending = 0) : n = h.turnCount name := by
  have counted := s.counted
  rw [ended, Multiset.card_zero, Nat.add_zero, s.found_of_ended ended] at counted
  exact counted

/-- While something is pending there is a turn to make. -/
theorem exists_turn {w : Worklist} (pending : w.pending ≠ 0) : ∃ v, Turn h w v := by
  obtain ⟨found, todo⟩ := w
  obtain ⟨top, htop⟩ := Multiset.exists_mem_of_ne_zero pending
  obtain ⟨rest, rfl⟩ := Multiset.exists_cons_of_mem htop
  by_cases hf : top ∈ found
  · exact ⟨_, .known hf⟩
  · exact ⟨_, .fresh hf⟩

/-- The search as it is computed is a run: it takes the first pending name, and the unseen
names are those not found yet. -/
theorem turns_explore {unseen todo : List String} {found : Finset String}
    (complement : ∀ other ∈ h.links.map (·.2), other ∈ unseen ↔ other ∉ found)
    (linked : ∀ other ∈ todo, other ∈ h.links.map (·.2)) :
    ∃ n, Turns h n ⟨found, todo⟩ ⟨found ∪ (explore h unseen todo).toFinset, 0⟩ := by
  fun_induction explore h unseen todo generalizing found with
  | case1 unseen =>
    refine ⟨0, ?_⟩
    rw [List.toFinset_nil, Finset.union_empty]
    exact .none _
  | case2 unseen top rest htop ih =>
    have new : top ∉ found := (complement top (linked top (by simp))).mp htop
    have complement' : ∀ other ∈ h.links.map (·.2),
        other ∈ without top unseen ↔ other ∉ insert top found := by
      intro other ho
      rw [mem_without_iff, complement other ho, Finset.mem_insert]
      tauto
    have linked' : ∀ other ∈ h.children top ++ rest, other ∈ h.links.map (·.2) := by
      intro other ho
      rcases List.mem_append.mp ho with ho | ho
      · exact List.mem_map_of_mem (f := (·.2)) (mem_children_iff.mp ho)
      · exact linked other (by simp [ho])
    obtain ⟨n, later⟩ := ih complement' linked'
    rw [← Multiset.coe_add] at later
    rw [← Multiset.cons_coe, List.toFinset_cons, Finset.union_insert, ← Finset.insert_union]
    exact ⟨n + 1, .cons (.fresh new) later⟩
  | case3 unseen top rest htop ih =>
    have old : top ∈ found := by
      by_contra new
      exact htop ((complement top (linked top (by simp))).mpr new)
    obtain ⟨n, later⟩ := ih complement fun other ho => linked other (by simp [ho])
    rw [← Multiset.cons_coe]
    exact ⟨n + 1, .cons (.known old) later⟩

theorem turns_descendants (h : Hierarchy) (name : String) :
    Turns h (h.turnCount name) (h.start name) ⟨(h.descendants name).toFinset, 0⟩ := by
  have linked : ∀ other ∈ h.children name, other ∈ h.links.map (·.2) := fun other ho =>
    List.mem_map_of_mem (f := (·.2)) (mem_children_iff.mp ho)
  have complement : ∀ other ∈ h.links.map (·.2),
      other ∈ h.links.map (·.2) ↔ other ∉ (∅ : Finset String) := by simp
  obtain ⟨n, run⟩ := turns_explore complement linked
  have s : Searched h name n _ := searched_of_turns run
  rw [← s.turns_of_ended rfl, ← s.found_of_ended rfl]
  exact run

/-! ## The result as a list -/

theorem mem_unseen_of_explore {unseen todo : List String} {other : String}
    (ho : other ∈ explore h unseen todo) : other ∈ unseen := by
  fun_induction explore h unseen todo with
  | case1 => simp at ho
  | case2 unseen top rest htop ih =>
    rcases List.mem_cons.mp ho with rfl | ho
    · exact htop
    · exact (mem_without_iff.mp (ih ho)).1
  | case3 unseen top rest _ ih => exact ih ho

theorem nodup_explore (h : Hierarchy) (unseen todo : List String) :
    (explore h unseen todo).Nodup := by
  fun_induction explore h unseen todo with
  | case1 => exact List.nodup_nil
  | case2 unseen top rest _ ih =>
    refine List.nodup_cons.mpr ⟨fun again => ?_, ih⟩
    exact (mem_without_iff.mp (mem_unseen_of_explore again)).2 rfl
  | case3 unseen top rest _ ih => exact ih

theorem nodup_descendants (h : Hierarchy) (name : String) : (h.descendants name).Nodup :=
  (List.mergeSort_perm _ _).nodup_iff.mpr (nodup_explore h _ _)

theorem pairwise_descendants (h : Hierarchy) (name : String) :
    (h.descendants name).Pairwise (· ≤ ·) := by
  have sorted := @List.pairwise_mergeSort _ (fun a b : String => decide (a ≤ b))
    (fun a b c hab hbc => by
      simp only [decide_eq_true_eq] at hab hbc ⊢
      exact String.le_trans hab hbc)
    (fun a b => by
      simp only [Bool.or_eq_true, decide_eq_true_eq]
      exact String.le_total a b)
    (explore h (h.links.map (·.2)) (h.children name))
  exact sorted.imp of_decide_eq_true

/-- Names in order and without repetition are told by which they are. -/
theorem descendants_eq_of_below {h' : Hierarchy}
    (same : ∀ parent child, h'.Below parent child ↔ h.Below parent child) (name : String) :
    h'.descendants name = h.descendants name := by
  have below : h'.Below = h.Below := by
    funext parent child
    exact propext (same parent child)
  have perm : (h'.descendants name).Perm (h.descendants name) := by
    rw [List.perm_ext_iff_of_nodup (nodup_descendants h' name) (nodup_descendants h name)]
    intro other
    rw [mem_descendants_iff, mem_descendants_iff, below]
  apply perm.eq_of_pairwise _ (pairwise_descendants h' name) (pairwise_descendants h name)
  exact fun a b _ _ hab hba => String.le_antisymm hab hba

/-! ## Finite maps -/

/-- A finite map from names to lists of names; a list may repeat names, and name others than
the keys. -/
abbrev ClassMap := AList fun _ : String => List String

/-- The names that a map lists for one, none if it is not a key. -/
def listed (map : ClassMap) (name : String) : List String := (map.lookup name).getD []

/-- The children of a name are those that the map lists. -/
def Represents (h : Hierarchy) (map : ClassMap) : Prop :=
  ∀ name, h.children name = listed map name

/-- Adds a child in front of the ones listed. -/
def addLink (link : String × String) (map : ClassMap) : ClassMap :=
  map.insert link.1 (link.2 :: listed map link.1)

/-- The links of a hierarchy make up a map, whatever their order. -/
theorem exists_represents_map (h : Hierarchy) : ∃ map, h.Represents map := by
  obtain ⟨links⟩ := h
  refine ⟨links.foldr addLink ∅, fun name => ?_⟩
  induction links with
  | nil => rfl
  | cons link rest ih =>
    have ih : (rest.filter fun l => l.1 = name).map (·.2) = listed (rest.foldr addLink ∅) name := ih
    rw [children, List.filter_cons, List.foldr_cons, addLink, listed]
    by_cases hname : name = link.1
    · subst hname
      rw [if_pos (decide_eq_true rfl), List.map_cons, ih, AList.lookup_insert, Option.getD_some]
    · rw [if_neg (by simpa using Ne.symm hname), ih, AList.lookup_insert_ne hname, ← listed]

/-- The hierarchy with the links of a map. -/
def ofMap (map : ClassMap) : Hierarchy :=
  ⟨map.entries.flatMap fun entry => entry.2.map fun child => (entry.1, child)⟩

theorem represents_ofMap (map : ClassMap) : (ofMap map).Represents map := by
  intro name
  obtain ⟨entries, distinct⟩ := map
  show (List.filter _ (entries.flatMap _)).map _ = (entries.dlookup name).getD []
  induction entries with
  | nil => rfl
  | cons entry rest ih =>
    obtain ⟨key, below⟩ := entry
    obtain ⟨hkey, hrest⟩ := List.nodupKeys_cons.mp distinct
    rw [List.flatMap_cons, List.filter_append, List.map_append, ih hrest]
    by_cases hname : name = key
    · subst hname
      rw [List.dlookup_cons_eq, List.dlookup_eq_none.mpr hkey, List.filter_eq_self.mpr (by simp)]
      simp
    · rw [List.dlookup_cons_ne rest ⟨key, below⟩ hname, List.filter_eq_nil_iff.mpr]
      · rfl
      · simp [Ne.symm hname]

theorem Represents.below_iff {map : ClassMap} (r : h.Represents map) {parent child : String} :
    h.Below parent child ↔ child ∈ listed map parent := by
  rw [← mem_children_iff, r]

/-- One or more steps lead from a name back to itself along a closed chain. -/
theorem transGen_self_iff {Step : String → String → Prop} {name : String} :
    Relation.TransGen Step name name ↔
      ∃ between, List.IsChain Step (name :: (between ++ [name])) := by
  rw [Relation.TransGen.tail'_iff]
  constructor
  · rintro ⟨last, path, closing⟩
    obtain ⟨chain, hchain, hlast⟩ := List.exists_isChain_cons_of_relationReflTransGen path
    refine ⟨chain, ?_⟩
    rw [← List.cons_append, List.isChain_append]
    refine ⟨hchain, List.isChain_singleton name, ?_⟩
    rw [List.getLast?_eq_some_getLast (List.cons_ne_nil name chain), hlast]
    simpa using closing
  · rintro ⟨between, hchain⟩
    rw [← List.cons_append, List.isChain_append] at hchain
    obtain ⟨path, -, closing⟩ := hchain
    have last := List.getLast?_eq_some_getLast (List.cons_ne_nil name between)
    refine ⟨(name :: between).getLast (by simp), ?_, closing _ last name (by simp)⟩
    exact List.relationReflTransGen_of_exists_isChain_cons between path rfl

/-- **The search below a class ends and finds the transitive closure.** A hierarchy is a finite
map, and any finite map is one. Every run of the loop ends, the computed one among them, with
the names that steps of the map lead to; the order inside the lists does not matter. -/
theorem descendants_closure (h : Hierarchy) (name : String) :
    (∃ map, h.Represents map) ∧ (∀ map, ∃ h' : Hierarchy, h'.Represents map) ∧
    ∀ map, h.Represents map →
      let Step := fun parent child => child ∈ listed map parent
      Turns h (h.turnCount name) (h.start name) ⟨(h.descendants name).toFinset, 0⟩ ∧
      (∀ n w, Turns h n (h.start name) w →
        n + w.pending.card ≤ h.turnCount name ∧
        (w.pending ≠ 0 → ∃ v, Turn h w v) ∧
        (w.pending = 0 → n = h.turnCount name ∧ w.found = (h.descendants name).toFinset)) ∧
      (∀ other, other ∈ h.descendants name ↔ Relation.TransGen Step name other) ∧
      (name ∈ h.descendants name ↔ ∃ between, List.IsChain Step (name :: (between ++ [name]))) ∧
      (h.descendants name).Nodup ∧ (h.descendants name).Pairwise (· ≤ ·) ∧
      ∀ map' (h' : Hierarchy), h'.Represents map' →
        (∀ parent, (listed map' parent).Perm (listed map parent)) →
        h'.descendants name = h.descendants name := by
  refine ⟨exists_represents_map h, fun map => ⟨ofMap map, represents_ofMap map⟩, ?_⟩
  intro map r Step
  have below : h.Below = Step := by
    funext parent child
    exact propext r.below_iff
  have reached (other : String) :
      other ∈ h.descendants name ↔ Relation.TransGen Step name other := below ▸ mem_descendants_iff
  refine ⟨turns_descendants h name, ?_, reached, ?_, nodup_descendants h name,
    pairwise_descendants h name, ?_⟩
  · intro n w run
    have s := searched_of_turns run
    exact ⟨s.turns_le, exists_turn, fun ended => ⟨s.turns_of_ended ended, s.found_of_ended ended⟩⟩
  · rw [reached, transGen_self_iff]
  · intro map' h' r' same
    apply descendants_eq_of_below
    intro parent child
    rw [r'.below_iff, r.below_iff]
    exact (same parent).mem_iff

end PermissionAudit.Hierarchy
