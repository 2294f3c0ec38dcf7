import PermissionAudit.Proofs.Permission.Refinement
import PermissionAudit.Proofs.Sequence.FirstOccurrence
import PermissionAudit.Proofs.Text.Fields
import PermissionAudit.Proofs.Text.Utf8

/-!
What a permission table means. A row contributes a permission and a call, unless it
is the first one and names the columns, or has fewer than three fields. The index
of a table answers every question as the contributions of its rows do: lists are in
the order of the rows that contribute to them first, and a table that is read from
its bytes is the one of its lines.
-/

namespace PermissionAudit

/-! ## Rows -/

/-- The row names the columns of the table. -/
def NamesColumns (row : List Char) : Prop :=
  "CallerClass".toList <:+: row ∧ "CallerMethod".toList <:+: row

/-- The first three fields of the row are a class, a method and the permission, with blanks around
them; the call is the class with dots for slashes, a dot and the method. -/
def RowGrants (row : List Char) (permission api : String) : Prop :=
  ∃ f₀ f₁ f₂ more className methodName,
    Fields.HasFields row (f₀ :: f₁ :: f₂ :: more) ∧ Fields.TrimsTo f₀ className ∧
      Fields.TrimsTo f₁ methodName ∧ Fields.TrimsTo f₂ permission.toList ∧
      api.toList = (className.map fun c => if c = '/' then '.' else c) ++ '.' :: methodName

/-- The row at a position puts the call under the permission. Only the first row can name the
columns. -/
def Contributes (rows : List String) (i : Nat) (permission api : String) : Prop :=
  ∃ row, rows[i]? = some row ∧ ¬ (i = 0 ∧ NamesColumns row.toList) ∧
    RowGrants row.toList permission api

namespace Grant

theorem isHeader_iff {row : List Char} : isHeader row = true ↔ NamesColumns row := by
  rw [isHeader, Bool.and_eq_true, Fields.occursIn_iff, Fields.occursIn_iff]
  rfl

theorem toList_apiOf (className methodName : List Char) :
    (apiOf (String.ofList className) (String.ofList methodName)).toList =
      (className.map fun c => if c = '/' then '.' else c) ++ '.' :: methodName := by
  simp [apiOf, Fields.replace]

theorem ofFields?_fields_eq_some_iff {row : List Char} {g : Grant} :
    ofFields? (fields row) = some g ↔ RowGrants row g.permission g.api := by
  obtain ⟨fs, hfs⟩ : ∃ fs, Fields.dropTrailing (·.isEmpty) (Fields.split ',' row) = fs := ⟨_, rfl⟩
  have only : ∀ fs', Fields.HasFields row fs' → fs' = fs := by
    intro fs' h
    rw [← hfs, Fields.fields_eq_iff.mpr h]
  rw [fields, hfs]
  constructor
  · intro h
    match fs, hfs, h with
    | f₀ :: f₁ :: f₂ :: more, hfs, h =>
      obtain rfl := Option.some.inj h
      refine ⟨f₀, f₁, f₂, more, Fields.trim f₀, Fields.trim f₁, Fields.fields_eq_iff.mp hfs,
        Fields.trim_eq_iff.mp rfl, Fields.trim_eq_iff.mp rfl, ?_, toList_apiOf _ _⟩
      rw [String.toList_ofList]
      exact Fields.trim_eq_iff.mp rfl
  · rintro ⟨f₀, f₁, f₂, more, className, methodName, hrow, hclass, hmethod, hpermission, hapi⟩
    obtain rfl := only _ hrow
    rw [← Fields.trim_eq_iff.mpr hclass, ← Fields.trim_eq_iff.mpr hmethod, ← toList_apiOf,
      String.toList_inj] at hapi
    have permission : String.ofList (Fields.trim f₂) = g.permission := by
      rw [Fields.trim_eq_iff.mpr hpermission, String.ofList_toList]
    show some (Grant.mk (String.ofList (Fields.trim f₂))
      (apiOf (String.ofList (Fields.trim f₀)) (String.ofList (Fields.trim f₁)))) = some g
    rw [permission, ← hapi]

theorem ofRow?_eq_some_iff {row : String} {i : Nat} {g : Grant} :
    ofRow? row i = some g ↔
      ¬ (i = 0 ∧ NamesColumns row.toList) ∧ RowGrants row.toList g.permission g.api := by
  rw [ofRow?, Option.ite_none_left_eq_some, isHeader_iff, ofFields?_fields_eq_some_iff]

end Grant

namespace PermissionIndex

/-! ## Grants in the order of rows -/

/-- The grants of the rows, one after another. -/
def rowGrants (rows : List String) : List Grant :=
  rows.zipIdx.filterMap fun r => Grant.ofRow? r.1 r.2

theorem tracks_ofRows (rows : List String) :
    (ofRows rows).Tracks (distinct ((rowGrants rows).map (·.permission)))
      (distinct (rowGrants rows)) :=
  tracks_foldl_insert (rowGrants rows)

theorem givenAt_iff {β : Type} {pick : Grant → Option β} {rows : List String} {i : Nat} {b : β} :
    GivenAt (fun r : String × Nat => (Grant.ofRow? r.1 r.2).bind pick) rows.zipIdx i b ↔
      ∃ g : Grant, Contributes rows i g.permission g.api ∧ pick g = some b := by
  simp only [GivenAt, Contributes, List.getElem?_zipIdx, Nat.zero_add, Option.map_eq_some_iff,
    Option.bind_eq_some_iff]
  constructor
  · rintro ⟨r, ⟨row, hrow, rfl⟩, g, hg, hb⟩
    exact ⟨g, ⟨row, hrow, Grant.ofRow?_eq_some_iff.mp hg⟩, hb⟩
  · rintro ⟨g, ⟨row, hrow, hg⟩, hb⟩
    exact ⟨(row, i), ⟨row, hrow, rfl⟩, g, Grant.ofRow?_eq_some_iff.mpr hg, hb⟩

/-- What is picked from the grants of the rows, without repetitions, is in the order of the rows
that contribute it first. -/
theorem firstOccurrences_rowGrants {β : Type} [DecidableEq β] (pick : Grant → Option β)
    (rows : List String) :
    FirstOccurrences
      (fun i b => ∃ g : Grant, Contributes rows i g.permission g.api ∧ pick g = some b)
      (distinct ((rowGrants rows).filterMap pick)) := by
  rw [rowGrants, List.filterMap_filterMap]
  exact (firstOccurrences_filterMap _ _).congr fun i b => givenAt_iff

theorem mem_grants_iff {rows : List String} {g : Grant} :
    g ∈ (ofRows rows).grants ↔ ∃ i, Contributes rows i g.permission g.api := by
  have h := (firstOccurrences_rowGrants some rows).mem_iff g
  rw [List.filterMap_some] at h
  rw [mem_grants_of_tracks (tracks_ofRows rows), h]
  refine exists_congr fun i => ?_
  constructor
  · rintro ⟨g', hg, heq⟩
    exact Option.some.inj heq ▸ hg
  · intro hg
    exact ⟨g, hg, rfl⟩

-- Only the first row can name the columns, and a field loses the blanks around it.
example :
    (ofRows ["CallerClass,CallerMethod,Permission", "a/B,f, P ,,", "CallerClass,CallerMethod,Q",
      "a/B , f,P"]).grants = [⟨"P", "a.B.f"⟩, ⟨"Q", "CallerClass.CallerMethod"⟩] := by
  decide +kernel

theorem firstOccurrences_permissions (rows : List String) :
    FirstOccurrences (fun i permission => ∃ api, Contributes rows i permission api)
      (ofRows rows).permissions := by
  have picked : (ofRows rows).permissions =
      distinct ((rowGrants rows).filterMap fun g => some g.permission) := by
    rw [permissions_of_tracks (tracks_ofRows rows), List.filterMap_eq_map']
  rw [picked]
  refine (firstOccurrences_rowGrants _ rows).congr fun i permission => ?_
  constructor
  · rintro ⟨g, hg, heq⟩
    exact ⟨g.api, Option.some.inj heq ▸ hg⟩
  · rintro ⟨api, h⟩
    exact ⟨⟨permission, api⟩, h, rfl⟩

/-- One column of the grants that agree in the other. A grant is its two columns, so that no two of
these grants agree here as well. -/
theorem firstOccurrences_column (key column : Grant → String) (join : String → String → Grant)
    (joined : ∀ g k s, key g = k ∧ column g = s ↔ g = join k s) (rows : List String) (k : String) :
    FirstOccurrences (fun i s => Contributes rows i (join k s).permission (join k s).api)
      (((distinct (rowGrants rows)).filter (key · = k)).map column) := by
  let pick : Grant → Option String := fun g => if key g = k then some (column g) else none
  have pick_iff : ∀ g s, pick g = some s ↔ g = join k s := by
    intro g s
    rw [Option.ite_none_right_eq_some, Option.some.injEq, joined]
  have inj : ∀ g g' s, pick g = some s → pick g' = some s → g = g' := by
    intro g g' s hg hg'
    exact ((pick_iff g s).mp hg).trans ((pick_iff g' s).mp hg').symm
  have picked : ((distinct (rowGrants rows)).filter (key · = k)).map column =
      distinct ((rowGrants rows).filterMap pick) := by
    rw [← filterMap_distinct inj, ← List.filterMap_eq_map, List.filterMap_filter]
    simp [pick]
  rw [picked]
  refine (firstOccurrences_rowGrants pick rows).congr fun i s => ?_
  simp only [pick_iff, exists_eq_right]

theorem firstOccurrences_apis (rows : List String) (permission : String) :
    FirstOccurrences (fun i api => Contributes rows i permission api)
      ((ofRows rows).apis permission) := by
  rw [apis_of_tracks (tracks_ofRows rows)]
  exact firstOccurrences_column (·.permission) (·.api) (fun permission api => ⟨permission, api⟩)
    (fun _ _ _ => by rw [Grant.mk.injEq]) rows permission

theorem firstOccurrences_permissionsOf (rows : List String) (api : String) :
    FirstOccurrences (fun i permission => Contributes rows i permission api)
      ((ofRows rows).permissionsOf api) := by
  rw [permissionsOf_of_tracks (tracks_ofRows rows)]
  exact firstOccurrences_column (·.api) (·.permission) (fun api permission => ⟨permission, api⟩)
    (fun _ _ _ => by rw [Grant.mk.injEq, and_comm]) rows api

/-! ## Tables -/

/-- The bytes of a text are read as the rows that its lines are. -/
theorem read_of_hasLines {text : String} {lines : List (List Char)}
    (h : Fields.HasLines text.toList lines) :
    (read (Utf8.encode text)).value = .ok (ofRows (lines.map String.ofList)) := by
  rw [read, Utf8.decode?_encode]
  show Except.ok (ofRows ((Fields.lines text.toList).map String.ofList)) = _
  rw [h.lines_eq]

/-- The index answers every question as the contributions of the rows do. -/
structure Answers (index : PermissionIndex) (rows : List String) : Prop where
  permissions : FirstOccurrences (fun i permission => ∃ api, Contributes rows i permission api)
    index.permissions
  /-- Each entry lists its calls, and its set holds the calls that it lists. -/
  entries : ∀ p ∈ index.entries,
    FirstOccurrences (fun i api => Contributes rows i p.name api) p.apis ∧
      ∀ api, p.apiSet.contains api ↔ api ∈ p.apis
  /-- An entry is found by its name, and under no other name anything is. -/
  found : ∀ p ∈ index.entries, index.permission? p.name = some p
  not_found : ∀ name, name ∉ index.permissions → index.permission? name = none
  apis : ∀ permission ∈ index.permissions,
    FirstOccurrences (fun i api => Contributes rows i permission api) (index.apis permission)
  /-- A listed permission is found with its calls, and no other is found. -/
  get_listed : ∀ permission ∈ index.permissions,
    index.get? permission = some (index.apis permission)
  get_unlisted : ∀ permission, permission ∉ index.permissions → index.get? permission = none
  guards_iff : ∀ permission api, index.guards permission api ↔ api ∈ index.apis permission
  isSensitive_iff : ∀ api, index.isSensitive api ↔
    ∃ permission ∈ index.permissions, index.guards permission api
  /-- The order is that of the rows that pair the permission with the call. -/
  permissionsOf : ∀ api, FirstOccurrences (fun i permission => Contributes rows i permission api)
    (index.permissionsOf api)
  size_eq : index.size = Set.ncard {g : Grant | ∃ i, Contributes rows i g.permission g.api}

/-- **The meaning of a table.** The index of some rows answers as their contributions do: what it
lists is in the order of the rows that contribute it first, its lookups agree with its lists, and
its size is the number of pairs. Reading the bytes of a text gives the index of its lines, and
every text has lines, however these end. -/
theorem ofRows_answers_contributions (rows : List String) :
    (ofRows rows).Answers rows ∧
      ∀ text : String, (∃ lines, Fields.HasLines text.toList lines) ∧
        ∀ lines, Fields.HasLines text.toList lines →
          (read (Utf8.encode text)).value = .ok (ofRows (lines.map String.ofList)) := by
  refine ⟨?_, fun text => ⟨Fields.exists_hasLines _, fun lines h => read_of_hasLines h⟩⟩
  exact {
    permissions := firstOccurrences_permissions rows
    entries := fun p hp => by
      have listed := apis_of_permission? (permission?_eq_some_iff.mpr ⟨hp, rfl⟩)
      exact ⟨listed ▸ firstOccurrences_apis rows p.name, p.listed⟩
    found := fun p hp => permission?_eq_some_iff.mpr ⟨hp, rfl⟩
    not_found := fun name h => permission?_of_not_mem h
    apis := fun permission _ => firstOccurrences_apis rows permission
    get_listed := fun permission h => get?_of_mem h
    get_unlisted := fun permission h => get?_of_not_mem h
    guards_iff := fun permission api => guards_iff
    isSensitive_iff := fun api => isSensitive_iff_exists_guards
    permissionsOf := firstOccurrences_permissionsOf rows
    size_eq := by
      rw [size_eq_ncard]
      simp only [mem_grants_iff] }

end PermissionIndex

end PermissionAudit
