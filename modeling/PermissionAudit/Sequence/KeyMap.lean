/-!
Maps whose keys are texts, as search trees. A key is looked up along the path that its
insertion took, so that a look-up after an insertion needs nothing about the order of keys.
A map of positions beside a list locates the items of the list by their keys.
-/

namespace PermissionAudit

/-- A search tree of keys with their values; smaller keys are on the left. -/
inductive KeyMap (β : Type) where
  | leaf
  | node (left : KeyMap β) (key : String) (value : β) (right : KeyMap β)
deriving DecidableEq

/-- A set of texts. -/
abbrev KeySet := KeyMap Unit

namespace KeyMap

variable {α β : Type}

def get? : KeyMap β → String → Option β
  | leaf, _ => none
  | node left key value right, k =>
    if k = key then some value else if k < key then left.get? k else right.get? k

def contains (m : KeyMap β) (k : String) : Bool := (m.get? k).isSome

/-- Inserts a value, in place of the one that the key had. -/
def insert : KeyMap β → String → β → KeyMap β
  | leaf, k, v => node leaf k v leaf
  | node left key value right, k, v =>
    if k = key then node left key v right
    else if k < key then node (left.insert k v) key value right
    else node left key value (right.insert k v)

@[simp] theorem get?_leaf (k : String) : (leaf : KeyMap β).get? k = none := rfl

theorem get?_insert (m : KeyMap β) (k : String) (v : β) (x : String) :
    (m.insert k v).get? x = if x = k then some v else m.get? x := by
  induction m with
  | leaf =>
    simp only [insert, get?, ite_self]
  | node left key value right ihl ihr =>
    rw [insert]
    by_cases hk : k = key
    · subst hk
      rw [if_pos rfl, get?, get?]
      by_cases hx : x = k
      · rw [if_pos hx, if_pos hx]
      · rw [if_neg hx, if_neg hx, if_neg hx]
    · rw [if_neg hk]
      by_cases hx : x = k
      · -- the two keys are the same, and take the same turns
        subst hx
        by_cases hlt : x < key
        · rw [if_pos hlt, get?, if_neg hk, if_pos hlt, ihl, if_pos rfl, if_pos rfl]
        · rw [if_neg hlt, get?, if_neg hk, if_neg hlt, ihr, if_pos rfl, if_pos rfl]
      · rw [if_neg hx]
        split
        · rw [get?, get?, ihl, if_neg hx]
        · rw [get?, get?, ihr, if_neg hx]

theorem contains_iff {m : KeyMap β} {k : String} : m.contains k ↔ ∃ v, m.get? k = some v :=
  Option.isSome_iff_exists

theorem contains_insert {m : KeyMap β} {k x : String} {v : β} :
    (m.insert k v).contains x ↔ x = k ∨ m.contains x := by
  rw [contains, get?_insert]
  by_cases h : x = k
  · simp [h]
  · simp [h, contains]

/-! ## Positions -/

/-- The map gives the position of each item for each of its keys, and nothing else. -/
def Locates (positions : KeyMap Nat) (items : List α) (HasKey : α → String → Prop) : Prop :=
  ∀ key i, positions.get? key = some i ↔ ∃ x, items[i]? = some x ∧ HasKey x key

namespace Locates

variable {positions : KeyMap Nat} {items : List α} {HasKey : α → String → Prop} {key : String}

theorem nil : (leaf : KeyMap Nat).Locates ([] : List α) HasKey := by
  intro key i
  simp

/-- A key that is not found is the key of no item. -/
theorem not_hasKey (h : positions.Locates items HasKey) (new : positions.get? key = none) {x : α}
    (hx : x ∈ items) : ¬ HasKey x key := by
  intro hkey
  obtain ⟨i, hi⟩ := List.mem_iff_getElem?.mp hx
  rw [(h key i).mpr ⟨x, hi, hkey⟩] at new
  cases new

/-- An item with a new key goes to the end. -/
theorem push (h : positions.Locates items HasKey) (new : positions.get? key = none) {x : α}
    (hx : ∀ k, HasKey x k ↔ k = key) :
    (positions.insert key items.length).Locates (items ++ [x]) HasKey := by
  intro k i
  rw [get?_insert]
  by_cases hk : k = key
  · subst hk
    rw [if_pos rfl, Option.some.injEq]
    constructor
    · rintro rfl
      exact ⟨x, List.getElem?_concat_length, (hx k).mpr rfl⟩
    · rintro ⟨y, hy, hkey⟩
      rcases Nat.lt_or_ge i items.length with hi | hi
      · rw [List.getElem?_append_left hi] at hy
        exact absurd hkey (h.not_hasKey new (List.mem_of_getElem? hy))
      · have := (List.getElem?_eq_some_iff.mp hy).1
        simp only [List.length_append, List.length_singleton] at this
        omega
  · rw [if_neg hk, h k i]
    constructor
    · rintro ⟨y, hy, hkey⟩
      have hi := (List.getElem?_eq_some_iff.mp hy).1
      exact ⟨y, by rw [List.getElem?_append_left hi, hy], hkey⟩
    · rintro ⟨y, hy, hkey⟩
      rcases Nat.lt_or_ge i items.length with hi | hi
      · exact ⟨y, by rwa [List.getElem?_append_left hi] at hy, hkey⟩
      · -- the item at the end has another key
        rw [List.getElem?_append_right hi] at hy
        obtain rfl := List.mem_singleton.mp (List.mem_of_getElem? hy)
        exact absurd ((hx k).mp hkey) hk

/-- A change of one item that keeps its keys. -/
theorem modify (h : positions.Locates items HasKey) (position : Nat) {change : α → α}
    (hchange : ∀ x k, HasKey (change x) k ↔ HasKey x k) :
    positions.Locates (items.modify position change) HasKey := by
  intro key i
  rw [h key i, List.getElem?_modify]
  cases items[i]? with
  | none => simp
  | some x =>
    by_cases hi : position = i
    · simp [hi, hchange]
    · simp [hi]

/-- What the keys of the items are may be said in another way. -/
theorem congr (h : positions.Locates items HasKey) {HasKey' : α → String → Prop}
    (same : ∀ x ∈ items, ∀ k, HasKey x k ↔ HasKey' x k) : positions.Locates items HasKey' := by
  intro key i
  rw [h key i]
  refine exists_congr fun x => and_congr_right fun hx => ?_
  exact same x (List.mem_of_getElem? hx) key

end Locates

end KeyMap

/-- A change of the item at the end. -/
theorem modify_concat_length {α : Type} (items : List α) (x : α) (change : α → α) :
    (items ++ [x]).modify items.length change = items ++ [change x] := by
  rw [List.modify_eq_take_cons_drop (by simp)]
  simp

end PermissionAudit
