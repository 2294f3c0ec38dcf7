import PermissionAudit.Permission.Row
import PermissionAudit.Program.Error
import PermissionAudit.Sequence.KeyMap
import PermissionAudit.Text.Utf8

/-!
Which permissions guard which calls. The permissions of a table are listed in order of
first appearance, each with its calls. Beside the list stand the positions of permissions by
their names, and the positions of the permissions that guard a call. Rows are put in one after
another, and every insertion keeps what is listed and what is looked up consistent.
-/

namespace PermissionAudit

/-! ## Permissions -/

/-- A permission with the calls that it guards, in order of first appearance, and the set of
these calls. -/
structure Permission where
  name : String
  apis : List String
  apiSet : KeySet
  nodup : apis.Nodup
  listed : ∀ api, apiSet.contains api ↔ api ∈ apis

namespace Permission

/-- A permission that guards nothing yet. -/
def new (name : String) : Permission := ⟨name, [], .leaf, .nil, by simp [KeyMap.contains]⟩

/-- Puts a call under the permission, and tells whether it was not there. -/
def insert (p : Permission) (api : String) : Bool × Permission :=
  if h : p.apiSet.contains api then (false, p)
  else
    (true,
      { p with
        apis := p.apis ++ [api]
        apiSet := p.apiSet.insert api ()
        nodup := by
          have new : api ∉ p.apis := fun hmem => h ((p.listed api).mpr hmem)
          exact List.nodup_append.mpr ⟨p.nodup, by simp, by grind⟩
        listed := fun x => by
          rw [KeyMap.contains_insert, p.listed x, List.mem_append, List.mem_singleton, or_comm] })

theorem insert_known {p : Permission} {api : String} (h : api ∈ p.apis) :
    p.insert api = (false, p) :=
  dif_pos ((p.listed api).mpr h)

theorem insert_new {p : Permission} {api : String} (h : api ∉ p.apis) :
    (p.insert api).1 = true ∧ (p.insert api).2.apis = p.apis ++ [api] := by
  rw [insert, dif_neg (mt (p.listed api).mp h)]
  exact ⟨rfl, rfl⟩

@[simp] theorem name_insert (p : Permission) (api : String) : (p.insert api).2.name = p.name := by
  unfold insert
  split <;> rfl

theorem mem_apis_insert {p : Permission} {api x : String} :
    x ∈ (p.insert api).2.apis ↔ x ∈ p.apis ∨ x = api := by
  by_cases h : api ∈ p.apis
  · rw [insert_known h]
    exact ⟨.inl, fun hx => hx.elim id fun heq => heq ▸ h⟩
  · rw [(insert_new h).2, List.mem_append, List.mem_singleton]

end Permission

/-! ## Tables -/

/-- Permissions in order of first appearance, with two ways to look them up. -/
structure PermissionTable where
  entries : List Permission := []
  /-- The position of each permission. -/
  byName : KeyMap Nat := .leaf
  /-- The positions of the permissions that guard a call. -/
  byApi : KeyMap (List Nat) := .leaf

namespace PermissionTable

/-- The table with an entry for a permission, and the position of that entry. -/
def entryFor (t : PermissionTable) (name : String) : PermissionTable × Nat :=
  match t.byName.get? name with
  | some position => (t, position)
  | none =>
    ({ t with
        entries := t.entries ++ [.new name]
        byName := t.byName.insert name t.entries.length },
      t.entries.length)

/-- Positions of the permissions that guard a call, in the order in which they came to. -/
def positionsOf (t : PermissionTable) (api : String) : List Nat := (t.byApi.get? api).getD []

/-- Puts a call under the permission at a position; what is new there is reversed as well. -/
def insertAt (t : PermissionTable) (position : Nat) (api : String) : PermissionTable :=
  match t.entries[position]? with
  | none => t
  | some p =>
    if (p.insert api).1 then
      { t with
        entries := t.entries.modify position fun p => (p.insert api).2
        byApi := t.byApi.insert api (t.positionsOf api ++ [position]) }
    else t

/-- Puts the call of a grant under its permission. -/
def insert (t : PermissionTable) (grant : Grant) : PermissionTable :=
  let (t, position) := t.entryFor grant.permission
  t.insertAt position grant.api

/-- Look-ups agree with what is listed. -/
structure Consistent (t : PermissionTable) : Prop where
  byName : t.byName.Locates t.entries fun p name => p.name = name
  byApi : ∀ api i, i ∈ t.positionsOf api ↔ ∃ p, t.entries[i]? = some p ∧ api ∈ p.apis
  /-- A call is a key only if something guards it. -/
  guarded : ∀ api, t.byApi.get? api ≠ some []

variable {t : PermissionTable} {name api : String} {i : Nat} {p : Permission}

theorem entryFor_known (h : t.byName.get? name = some i) : t.entryFor name = (t, i) := by
  rw [entryFor, h]

theorem entryFor_new (h : t.byName.get? name = none) :
    t.entryFor name =
      ({ t with
          entries := t.entries ++ [.new name]
          byName := t.byName.insert name t.entries.length },
        t.entries.length) := by
  rw [entryFor, h]

/-- A call that the permission lists changes nothing. -/
theorem insertAt_known (hp : t.entries[i]? = some p) (h : api ∈ p.apis) :
    t.insertAt i api = t := by
  rw [insertAt, hp]
  simp [Permission.insert_known h]

theorem insertAt_new (hp : t.entries[i]? = some p) (h : api ∉ p.apis) :
    t.insertAt i api =
      { t with
        entries := t.entries.modify i fun p => (p.insert api).2
        byApi := t.byApi.insert api (t.positionsOf api ++ [i]) } := by
  rw [insertAt, hp]
  simp [(Permission.insert_new h).1]

/-- Positions after more of a call has been reversed. -/
theorem positionsOf_insert (positions : List Nat) (x : String) :
    positionsOf { t with byApi := t.byApi.insert api positions } x =
      if x = api then positions else t.positionsOf x := by
  rw [positionsOf, KeyMap.get?_insert]
  split <;> rfl

theorem Consistent.empty : Consistent {} :=
  ⟨.nil, by simp [positionsOf], by simp⟩

theorem Consistent.entryFor (h : t.Consistent) (name : String) :
    (t.entryFor name).1.Consistent ∧
      ∃ p, (t.entryFor name).1.entries[(t.entryFor name).2]? = some p ∧ p.name = name := by
  cases found : t.byName.get? name with
  | some i =>
    rw [entryFor_known found]
    exact ⟨h, (h.byName name i).mp found⟩
  | none =>
    rw [entryFor_new found]
    refine ⟨⟨h.byName.push found fun _ => eq_comm, ?_, h.guarded⟩,
      .new name, List.getElem?_concat_length, rfl⟩
    intro api i
    -- the permission that is new guards nothing
    refine (h.byApi api i).trans ⟨?_, ?_⟩
    · rintro ⟨p, hp, hapi⟩
      have hi := (List.getElem?_eq_some_iff.mp hp).1
      exact ⟨p, by rw [List.getElem?_append_left hi, hp], hapi⟩
    · rintro ⟨p, hp, hapi⟩
      rcases Nat.lt_or_ge i t.entries.length with hi | hi
      · exact ⟨p, by rwa [List.getElem?_append_left hi] at hp, hapi⟩
      · rw [List.getElem?_append_right hi] at hp
        obtain rfl := List.mem_singleton.mp (List.mem_of_getElem? hp)
        cases hapi

/-- What is listed after a call has been put under a permission. -/
theorem lists_modify_iff (hp : t.entries[i]? = some p) {x : String} {j : Nat} :
    (∃ q, (t.entries.modify i fun p => (p.insert api).2)[j]? = some q ∧ x ∈ q.apis) ↔
      (∃ q, t.entries[j]? = some q ∧ x ∈ q.apis) ∨ j = i ∧ x = api := by
  rw [List.getElem?_modify]
  by_cases hj : i = j
  · subst hj
    simp [hp, Permission.mem_apis_insert]
  · cases t.entries[j]? <;> simp [hj, Ne.symm hj]

theorem Consistent.insertAt (h : t.Consistent) (hp : t.entries[i]? = some p) (api : String) :
    (t.insertAt i api).Consistent := by
  by_cases hapi : api ∈ p.apis
  · rwa [insertAt_known hp hapi]
  · rw [insertAt_new hp hapi]
    refine ⟨h.byName.modify i fun _ _ => by rw [Permission.name_insert], ?_, ?_⟩
    · intro x j
      rw [lists_modify_iff hp, ← h.byApi x j]
      show j ∈ positionsOf { t with byApi := _ } x ↔ _
      rw [positionsOf_insert]
      by_cases hx : x = api
      · simp [hx]
      · simp [hx]
    · intro x
      rw [KeyMap.get?_insert]
      by_cases hx : x = api
      · simp [hx]
      · simpa [hx] using h.guarded x

/-- **Every insertion keeps a table consistent.** -/
theorem Consistent.insert (h : t.Consistent) (grant : Grant) : (t.insert grant).Consistent := by
  obtain ⟨consistent, p, hp, -⟩ := h.entryFor grant.permission
  exact consistent.insertAt hp grant.api

end PermissionTable

/-! ## Indices -/

/-- A consistent table. -/
structure PermissionIndex extends PermissionTable where
  consistent : toPermissionTable.Consistent

namespace PermissionIndex

def empty : PermissionIndex := ⟨{}, .empty⟩

def insert (index : PermissionIndex) (grant : Grant) : PermissionIndex :=
  ⟨index.toPermissionTable.insert grant, index.consistent.insert grant⟩

/-- The index of a table given by its rows. -/
def ofRows (rows : List String) : PermissionIndex :=
  (rows.zipIdx.filterMap fun r => Grant.ofRow? r.1 r.2).foldl insert empty

/-- Reads the rows of a table and logs those that are skipped. -/
def readRows (rows : List String) : Logged PermissionIndex :=
  ⟨ofRows rows, rows.zipIdx.flatMap fun r => Grant.rowRecords r.1 r.2⟩

/-- Reads a table, one row per line. -/
def read (table : Bytes) : Logged (Except AnalysisError PermissionIndex) :=
  match Utf8.decode? table with
  | none => pure (.error (.file .invalidText))
  | some text => .ok <$> readRows ((Fields.lines text.toList).map String.ofList)

/-- Permissions in order of first appearance. -/
def permissions (index : PermissionIndex) : List String := index.entries.map (·.name)

/-- The permission of a name. -/
def permission? (index : PermissionIndex) (name : String) : Option Permission := do
  let position ← index.byName.get? name
  index.entries[position]?

/-- Calls guarded by a permission that the table knows. -/
def get? (index : PermissionIndex) (permission : String) : Option (List String) :=
  (index.permission? permission).map (·.apis)

/-- Calls guarded by a permission, in order of first appearance. -/
def apis (index : PermissionIndex) (permission : String) : List String :=
  (index.get? permission).getD []

/-- Whether the permission guards the call. -/
def guards (index : PermissionIndex) (permission api : String) : Bool :=
  (index.permission? permission).any (·.apiSet.contains api)

/-- Whether some permission guards the call. -/
def isSensitive (index : PermissionIndex) (api : String) : Bool := index.byApi.contains api

/-- Permissions that guard a call, in the order in which they came to. -/
def permissionsOf (index : PermissionIndex) (api : String) : List String :=
  (index.positionsOf api).filterMap fun position => (index.entries[position]?).map (·.name)

/-- The number of grants; a call guarded twice counts twice. -/
def size (index : PermissionIndex) : Nat := (index.entries.flatMap (·.apis)).length

def isEmpty (index : PermissionIndex) : Bool := index.entries.isEmpty

/-- What the index lists, permission by permission. -/
def grants (index : PermissionIndex) : List Grant :=
  index.entries.flatMap fun p => p.apis.map fun api => ⟨p.name, api⟩

theorem mem_grants {index : PermissionIndex} {grant : Grant} :
    grant ∈ index.grants ↔ ∃ p ∈ index.entries, p.name = grant.permission ∧ grant.api ∈ p.apis := by
  simp only [grants, List.mem_flatMap, List.mem_map]
  refine exists_congr fun p => and_congr_right fun _ => ⟨?_, ?_⟩
  · rintro ⟨api, hapi, rfl⟩
    exact ⟨rfl, hapi⟩
  · rintro ⟨hname, hapi⟩
    exact ⟨grant.api, hapi, by rw [hname]⟩

theorem isSensitive_iff {index : PermissionIndex} {api : String} :
    index.isSensitive api ↔ ∃ grant ∈ index.grants, grant.api = api := by
  rw [isSensitive, KeyMap.contains_iff]
  constructor
  · rintro ⟨positions, hpositions⟩
    obtain ⟨i, hi⟩ : ∃ i, i ∈ positions := by
      refine List.exists_mem_of_ne_nil positions ?_
      rintro rfl
      exact index.consistent.guarded api hpositions
    have listed : i ∈ index.positionsOf api := by rwa [PermissionTable.positionsOf, hpositions]
    obtain ⟨p, hp, hapi⟩ := (index.consistent.byApi api i).mp listed
    exact ⟨⟨p.name, api⟩, mem_grants.mpr ⟨p, List.mem_of_getElem? hp, rfl, hapi⟩, rfl⟩
  · rintro ⟨grant, hgrant, rfl⟩
    obtain ⟨p, hp, -, hapi⟩ := mem_grants.mp hgrant
    obtain ⟨i, hi⟩ := List.mem_iff_getElem?.mp hp
    have listed := (index.consistent.byApi grant.api i).mpr ⟨p, hi, hapi⟩
    cases hpositions : index.byApi.get? grant.api with
    | none =>
      rw [PermissionTable.positionsOf, hpositions] at listed
      cases listed
    | some positions => exact ⟨positions, rfl⟩

end PermissionIndex

end PermissionAudit
