import Mathlib.Data.List.Induction
import Mathlib.Data.List.Nodup
import PermissionAudit.Sequence.Distinct

/-!
Order of first occurrence, said about positions: which things a list holds, that it
holds each of them once, and that one stands before another if it occurs at a
position up to which the other does not. The distinct elements of a list are in
this order, and picking from them commutes with leaving out repetitions.
-/

namespace PermissionAudit

/-- The first occurs at a position up to which the second does not. -/
def OccursBefore {α : Type} (Occurs : Nat → α → Prop) (a b : α) : Prop :=
  ∃ i, Occurs i a ∧ ∀ j ≤ i, ¬ Occurs j b

/-- The list holds what occurs at some position, each thing once and in order of first
occurrence. -/
structure FirstOccurrences {α : Type} (Occurs : Nat → α → Prop) (ys : List α) : Prop where
  mem_iff : ∀ a, a ∈ ys ↔ ∃ i, Occurs i a
  nodup : ys.Nodup
  ordered : ys.Pairwise (OccursBefore Occurs)

theorem FirstOccurrences.congr {α : Type} {Occurs Occurs' : Nat → α → Prop} {ys : List α}
    (h : FirstOccurrences Occurs ys) (same : ∀ i a, Occurs i a ↔ Occurs' i a) :
    FirstOccurrences Occurs' ys := by
  have heq : Occurs = Occurs' := by
    funext i a
    exact propext (same i a)
  exact heq ▸ h

/-! ## What a function gives along a list -/

section

variable {α β : Type} {f : α → Option β} {x : α} {rest : List α} {b c : β}

/-- The function gives `b` at a position of the list. -/
def GivenAt (f : α → Option β) (xs : List α) (i : Nat) (b : β) : Prop :=
  ∃ x, xs[i]? = some x ∧ f x = some b

theorem givenAt_cons_zero : GivenAt f (x :: rest) 0 b ↔ f x = some b := by
  simp [GivenAt]

theorem givenAt_cons_succ {i : Nat} : GivenAt f (x :: rest) (i + 1) b ↔ GivenAt f rest i b := by
  simp [GivenAt]

theorem exists_givenAt_iff {xs : List α} : (∃ i, GivenAt f xs i b) ↔ b ∈ xs.filterMap f := by
  rw [List.mem_filterMap]
  constructor
  · rintro ⟨i, x, hi, hb⟩
    exact ⟨x, List.mem_of_getElem? hi, hb⟩
  · rintro ⟨x, hx, hb⟩
    obtain ⟨i, hi⟩ := List.mem_iff_getElem?.mp hx
    exact ⟨i, x, hi, hb⟩

theorem OccursBefore.of_head (hb : f x = some b) (hc : f x ≠ some c) :
    OccursBefore (GivenAt f (x :: rest)) b c := by
  refine ⟨0, givenAt_cons_zero.mpr hb, ?_⟩
  intro j hj
  obtain rfl : j = 0 := by omega
  rw [givenAt_cons_zero]
  exact hc

theorem OccursBefore.cons (hc : f x ≠ some c) (h : OccursBefore (GivenAt f rest) b c) :
    OccursBefore (GivenAt f (x :: rest)) b c := by
  obtain ⟨i, hi, hfirst⟩ := h
  refine ⟨i + 1, givenAt_cons_succ.mpr hi, ?_⟩
  intro j hj
  cases j with
  | zero =>
    rw [givenAt_cons_zero]
    exact hc
  | succ j =>
    rw [givenAt_cons_succ]
    exact hfirst j (by omega)

end

/-! ## Distinct elements -/

variable {α β : Type} [DecidableEq β]

theorem pairwise_distinct_filterMap (f : α → Option β) (xs : List α) :
    (distinct (xs.filterMap f)).Pairwise (OccursBefore (GivenAt f xs)) := by
  induction xs with
  | nil => exact .nil
  | cons x rest ih =>
    cases hx : f x with
    | none =>
      rw [List.filterMap_cons_none hx]
      exact ih.imp fun h => .cons (by simp [hx]) h
    | some a =>
      have other {b : β} (hb : b ∈ (distinct (rest.filterMap f)).filter (· ≠ a)) :
          f x ≠ some b := by
        have hne : b ≠ a := by simpa using (List.mem_filter.mp hb).2
        rw [hx]
        intro heq
        exact hne (Option.some.inj heq).symm
      rw [List.filterMap_cons_some hx, distinct]
      apply List.Pairwise.cons
      · intro b hb
        exact .of_head hx (other hb)
      · exact (ih.sublist List.filter_sublist).imp_of_mem fun _ hc h => .cons (other hc) h

/-- What a function gives along a list, without repetitions, is in order of first occurrence. -/
theorem firstOccurrences_filterMap (f : α → Option β) (xs : List α) :
    FirstOccurrences (GivenAt f xs) (distinct (xs.filterMap f)) where
  mem_iff b := by rw [mem_distinct, exists_givenAt_iff]
  nodup := nodup_distinct _
  ordered := pairwise_distinct_filterMap f xs

theorem firstOccurrences_map (f : α → β) (xs : List α) :
    FirstOccurrences (GivenAt (some ∘ f) xs) (distinct (xs.map f)) := by
  rw [← List.filterMap_eq_map]
  exact firstOccurrences_filterMap _ xs

theorem distinct_of_nodup {xs : List β} (h : xs.Nodup) : distinct xs = xs := by
  rw [distinct_eq_distinctBy]
  exact distinctBy_of_nodup (by simpa using h)

/-- Repetitions that are left out before picking would be left out after it. -/
theorem distinct_filterMap_distinct [DecidableEq α] (f : α → Option β) (xs : List α) :
    distinct ((distinct xs).filterMap f) = distinct (xs.filterMap f) := by
  induction xs using List.reverseRecOn with
  | nil => rfl
  | append_singleton xs a ih =>
    have same : ∀ b, b ∈ (distinct xs).filterMap f ↔ b ∈ xs.filterMap f := by
      intro b
      simp only [List.mem_filterMap, mem_distinct]
    rw [distinct_append_singleton, List.filterMap_append]
    by_cases ha : a ∈ xs
    · rw [if_pos ha, ih]
      cases hfa : f a with
      | none => simp [hfa]
      | some b =>
        have hb : b ∈ xs.filterMap f := List.mem_filterMap.mpr ⟨a, ha, hfa⟩
        rw [List.filterMap_cons_some hfa, List.filterMap_nil, distinct_append_singleton, if_pos hb]
    · rw [if_neg ha, List.filterMap_append]
      cases hfa : f a with
      | none => simpa [hfa] using ih
      | some b =>
        simp only [List.filterMap_cons_some hfa, List.filterMap_nil, distinct_append_singleton,
          same, ih]

/-- Picking commutes with leaving out repetitions, if no two elements give the same. -/
theorem filterMap_distinct [DecidableEq α] {f : α → Option β}
    (inj : ∀ a a' b, f a = some b → f a' = some b → a = a') (xs : List α) :
    (distinct xs).filterMap f = distinct (xs.filterMap f) := by
  have nodup : ((distinct xs).filterMap f).Nodup :=
    (nodup_distinct xs).filterMap fun a a' b hb hb' => inj a a' b hb hb'
  rw [← distinct_filterMap_distinct, distinct_of_nodup nodup]

theorem distinct_map_distinct [DecidableEq α] (f : α → β) (xs : List α) :
    distinct ((distinct xs).map f) = distinct (xs.map f) := by
  rw [← List.filterMap_eq_map]
  exact distinct_filterMap_distinct _ xs

theorem map_distinct [DecidableEq α] {f : α → β} (inj : Function.Injective f) (xs : List α) :
    (distinct xs).map f = distinct (xs.map f) := by
  rw [← distinct_map_distinct, distinct_of_nodup ((nodup_distinct xs).map inj)]

end PermissionAudit
