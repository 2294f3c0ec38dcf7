/-!
The distinct elements of a list, in order of first occurrence.
-/

namespace PermissionAudit

/-- The elements of a list without repetitions; the first occurrence of each is kept. -/
def distinct {α : Type} [DecidableEq α] : List α → List α
  | [] => []
  | a :: rest => a :: (distinct rest).filter (· ≠ a)

@[simp] theorem distinct_nil {α : Type} [DecidableEq α] : distinct ([] : List α) = [] := rfl

@[simp] theorem mem_distinct {α : Type} [DecidableEq α] {a : α} {xs : List α} :
    a ∈ distinct xs ↔ a ∈ xs := by
  induction xs with
  | nil => simp
  | cons b rest ih =>
    by_cases h : a = b
    · simp [distinct, h]
    · simp [distinct, h, ih]

theorem nodup_distinct {α : Type} [DecidableEq α] (xs : List α) : (distinct xs).Nodup := by
  induction xs with
  | nil => simp
  | cons a rest ih =>
    refine List.nodup_cons.mpr ⟨by simp, ?_⟩
    exact List.Nodup.sublist List.filter_sublist ih

/-- The elements of a list whose key no earlier element has. -/
def distinctBy {α β : Type} [DecidableEq β] (key : α → β) : List α → List α
  | [] => []
  | a :: rest => a :: (distinctBy key rest).filter (key · ≠ key a)

theorem distinct_eq_distinctBy {α : Type} [DecidableEq α] (xs : List α) :
    distinct xs = distinctBy id xs := by
  induction xs with
  | nil => rfl
  | cons a rest ih => simp [distinct, distinctBy, ih]

theorem distinctBy_append_singleton {α β : Type} [DecidableEq β] (key : α → β) (xs : List α)
    (a : α) :
    distinctBy key (xs ++ [a]) =
      if key a ∈ xs.map key then distinctBy key xs else distinctBy key xs ++ [a] := by
  induction xs with
  | nil => rfl
  | cons b rest ih =>
    rw [List.cons_append, distinctBy, ih, List.map_cons, distinctBy]
    by_cases hr : key a ∈ rest.map key
    · simp only [if_pos hr, if_pos (List.mem_cons_of_mem _ hr)]
    · rw [if_neg hr]
      by_cases hb : key a = key b
      · simp [hb]
      · rw [if_neg (by simp [hb, hr])]
        simp [hb]

theorem distinct_append_singleton {α : Type} [DecidableEq α] (xs : List α) (a : α) :
    distinct (xs ++ [a]) = if a ∈ xs then distinct xs else distinct xs ++ [a] := by
  simp only [distinct_eq_distinctBy, distinctBy_append_singleton, List.map_id, id]

theorem map_distinctBy {α β : Type} [DecidableEq β] (key : α → β) (xs : List α) :
    (distinctBy key xs).map key = distinct (xs.map key) := by
  induction xs with
  | nil => rfl
  | cons a rest ih =>
    rw [distinctBy, List.map_cons, List.map_cons, distinct, ← ih, List.filter_map]
    rfl

theorem distinctBy_of_nodup {α β : Type} [DecidableEq β] {key : α → β} {xs : List α}
    (h : (xs.map key).Nodup) : distinctBy key xs = xs := by
  induction xs with
  | nil => rfl
  | cons a rest ih =>
    obtain ⟨ha, hr⟩ := List.nodup_cons.mp h
    rw [distinctBy, ih hr, List.filter_eq_self.mpr]
    intro b hb
    have : key b ≠ key a := fun e => ha (e ▸ List.mem_map_of_mem hb)
    simpa using this

theorem distinctBy_sublist {α β : Type} [DecidableEq β] (key : α → β) (xs : List α) :
    (distinctBy key xs).Sublist xs := by
  induction xs with
  | nil => exact List.Sublist.slnil
  | cons a rest ih => exact (List.filter_sublist.trans ih).cons_cons a

end PermissionAudit
