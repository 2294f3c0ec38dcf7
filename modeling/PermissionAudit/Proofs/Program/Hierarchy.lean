import Mathlib.Logic.Relation
import PermissionAudit.Program.Hierarchy

/-!
The names below a class are the names reachable from it by links of the
hierarchy. The worklist is shown sound (what it finds is reachable) and closed
(what follows from a found name is found, as long as it was not taken up
before); with every linked name unseen at the start, closed means complete.
-/

namespace PermissionAudit.Hierarchy

/-- One step down: the child names the parent. -/
def Below (h : Hierarchy) (parent child : String) : Prop := (parent, child) ∈ h.links

variable {h : Hierarchy} {parent child : String}

theorem mem_children_iff : child ∈ h.children parent ↔ h.Below parent child := by
  simp [children, Below]

theorem below_ofClasses_iff {classes : List ClassInfo} :
    (ofClasses classes).Below parent child ↔
      ∃ c ∈ classes, c.name = child ∧ parent ∈ c.parents := by
  simp only [Below, ofClasses, List.mem_flatMap, List.mem_map, Prod.mk.injEq]
  constructor
  · rintro ⟨c, hc, p, hp, rfl, rfl⟩
    exact ⟨c, hc, rfl, hp⟩
  · rintro ⟨c, hc, rfl, hp⟩
    exact ⟨c, hc, parent, hp, rfl, rfl⟩

theorem mem_without_iff {name other : String} {names : List String} :
    other ∈ without name names ↔ other ∈ names ∧ other ≠ name := by
  simp [without]

/-! ## What the worklist finds -/

theorem explore_sound {unseen todo : List String} {name : String}
    (hn : name ∈ explore h unseen todo) :
    ∃ start ∈ todo, Relation.ReflTransGen h.Below start name := by
  fun_induction explore h unseen todo with
  | case1 => simp at hn
  | case2 unseen first rest _ ih =>
    rcases List.mem_cons.mp hn with rfl | hn
    · exact ⟨name, by simp, .refl⟩
    · obtain ⟨start, hs, path⟩ := ih hn
      rcases List.mem_append.mp hs with hs | hs
      · exact ⟨first, by simp, .head (mem_children_iff.mp hs) path⟩
      · exact ⟨start, by simp [hs], path⟩
  | case3 unseen first rest _ ih =>
    obtain ⟨start, hs, path⟩ := ih hn
    exact ⟨start, by simp [hs], path⟩

theorem mem_explore_of_todo {unseen todo : List String} {name : String} (ht : name ∈ todo)
    (hu : name ∈ unseen) : name ∈ explore h unseen todo := by
  fun_induction explore h unseen todo with
  | case1 => simp at ht
  | case2 unseen first rest _ ih =>
    by_cases hf : name = first
    · simp [hf]
    · have hr : name ∈ rest := by simpa [hf] using ht
      exact List.mem_cons_of_mem _ (ih (by simp [hr]) (mem_without_iff.mpr ⟨hu, hf⟩))
  | case3 unseen first rest hfirst ih =>
    rcases List.mem_cons.mp ht with rfl | ht
    · exact absurd hu hfirst
    · exact ih ht hu

/-- A name that was unseen and follows from a found one is found as well. -/
theorem mem_explore_of_below {unseen todo : List String}
    (hp : parent ∈ explore h unseen todo) (hb : h.Below parent child) (hu : child ∈ unseen) :
    child ∈ explore h unseen todo := by
  fun_induction explore h unseen todo with
  | case1 => simp at hp
  | case2 unseen first rest _ ih =>
    by_cases hf : child = first
    · simp [hf]
    · have hu' : child ∈ without first unseen := mem_without_iff.mpr ⟨hu, hf⟩
      rcases List.mem_cons.mp hp with rfl | hp
      · -- the children of the name just taken up are pending
        have ht : child ∈ h.children parent ++ rest := by simp [mem_children_iff.mpr hb]
        exact List.mem_cons_of_mem _ (mem_explore_of_todo ht hu')
      · exact List.mem_cons_of_mem _ (ih hp hu')
  | case3 unseen first rest _ ih => exact ih hp hu

/-- The names below a class are those that one or more links lead to. -/
theorem mem_descendants_iff {name : String} :
    name ∈ h.descendants parent ↔ Relation.TransGen h.Below parent name := by
  rw [descendants, List.mem_mergeSort]
  constructor
  · intro hn
    obtain ⟨start, hs, path⟩ := explore_sound hn
    exact .head' (mem_children_iff.mp hs) path
  · intro path
    have unseen {p c : String} (hb : h.Below p c) : c ∈ h.links.map (·.2) :=
      List.mem_map_of_mem (f := (·.2)) hb
    induction path with
    | single hb => exact mem_explore_of_todo (mem_children_iff.mpr hb) (unseen hb)
    | tail _ hb ih => exact mem_explore_of_below ih hb (unseen hb)

end PermissionAudit.Hierarchy
