import Mathlib.Data.List.Induction
import Mathlib.Data.List.Nodup
import Mathlib.Data.Set.Card
import PermissionAudit.Permission.Index
import PermissionAudit.Sequence.Distinct

/-!
An index against a list of grants. Whatever was put into a consistent table, its look-ups
answer as its lists do. And when grants have been put in one after another, the table says
what the list of the different ones says: permissions, the calls of each of them, and the
permissions of each call, all in the order of that list.
-/

namespace PermissionAudit

/-! ## Questions to an index -/

namespace PermissionIndex

variable {index : PermissionIndex} {permission api : String} {p : Permission}

theorem permission?_eq_some_iff :
    index.permission? permission = some p ↔ p ∈ index.entries ∧ p.name = permission := by
  rw [permission?, Option.bind_eq_bind, Option.bind_eq_some_iff]
  constructor
  · rintro ⟨i, found, entry⟩
    obtain ⟨q, hq, hname⟩ := (index.consistent.byName permission i).mp found
    obtain rfl := Option.some.inj (entry.symm.trans hq)
    exact ⟨List.mem_of_getElem? entry, hname⟩
  · rintro ⟨hp, hname⟩
    obtain ⟨i, entry⟩ := List.mem_iff_getElem?.mp hp
    exact ⟨i, (index.consistent.byName permission i).mpr ⟨p, entry, hname⟩, entry⟩

theorem exists_permission?_iff :
    (∃ p, index.permission? permission = some p) ↔ permission ∈ index.permissions := by
  simp only [permission?_eq_some_iff, permissions, List.mem_map]

theorem permission?_of_not_mem (h : permission ∉ index.permissions) :
    index.permission? permission = none := by
  rw [Option.eq_none_iff_forall_ne_some]
  exact fun p hp => h (exists_permission?_iff.mp ⟨p, hp⟩)

theorem apis_of_permission? (h : index.permission? permission = some p) :
    index.apis permission = p.apis := by
  rw [apis, get?, h, Option.map_some, Option.getD_some]

theorem get?_of_mem (h : permission ∈ index.permissions) :
    index.get? permission = some (index.apis permission) := by
  obtain ⟨p, hp⟩ := exists_permission?_iff.mpr h
  rw [apis_of_permission? hp, get?, hp, Option.map_some]

theorem get?_of_not_mem (h : permission ∉ index.permissions) : index.get? permission = none := by
  rw [get?, permission?_of_not_mem h, Option.map_none]

theorem mem_apis_iff : api ∈ index.apis permission ↔ ⟨permission, api⟩ ∈ index.grants := by
  rw [mem_grants]
  by_cases h : permission ∈ index.permissions
  · obtain ⟨p, hp⟩ := exists_permission?_iff.mpr h
    obtain ⟨hmem, hname⟩ := permission?_eq_some_iff.mp hp
    rw [apis_of_permission? hp]
    constructor
    · exact fun hapi => ⟨p, hmem, hname, hapi⟩
    · rintro ⟨q, hq, hname', hapi⟩
      have same := hp.symm.trans (permission?_eq_some_iff.mpr ⟨hq, hname'⟩)
      rwa [Option.some.inj same]
  · rw [apis, get?_of_not_mem h]
    constructor
    · intro hapi
      cases hapi
    · rintro ⟨q, hq, hname, -⟩
      exact absurd (List.mem_map.mpr ⟨q, hq, hname⟩) h

/-- The set of the calls of a permission is that of the listed ones. -/
theorem guards_iff : index.guards permission api ↔ api ∈ index.apis permission := by
  cases hp : index.permission? permission with
  | none => simp [guards, apis, get?, hp]
  | some p => rw [guards, hp, apis_of_permission? hp, Option.any_some, p.listed api]

theorem isSensitive_iff_exists_guards :
    index.isSensitive api ↔ ∃ permission ∈ index.permissions, index.guards permission api := by
  rw [isSensitive_iff]
  constructor
  · rintro ⟨g, hg, rfl⟩
    obtain ⟨p, hp, hname, -⟩ := mem_grants.mp hg
    refine ⟨g.permission, List.mem_map.mpr ⟨p, hp, hname⟩, ?_⟩
    exact guards_iff.mpr (mem_apis_iff.mpr hg)
  · rintro ⟨permission, -, h⟩
    exact ⟨_, mem_apis_iff.mp (guards_iff.mp h), rfl⟩

/-- No two entries have the same name. -/
theorem nodup_permissions (index : PermissionIndex) : index.permissions.Nodup := by
  rw [permissions, List.nodup_iff_getElem?_ne_getElem?]
  intro i j hij hj same
  rw [List.length_map] at hj
  rw [List.getElem?_map, List.getElem?_map, List.getElem?_eq_getElem hj,
    List.getElem?_eq_getElem (Nat.lt_trans hij hj), Option.map_some, Option.map_some] at same
  have left := (index.consistent.byName _ i).mpr
    ⟨_, List.getElem?_eq_getElem (Nat.lt_trans hij hj), Option.some.inj same⟩
  have right := (index.consistent.byName _ j).mpr ⟨_, List.getElem?_eq_getElem hj, rfl⟩
  have := Option.some.inj (left.symm.trans right)
  omega

theorem nodup_grants (index : PermissionIndex) : index.grants.Nodup := by
  rw [grants, List.nodup_flatMap]
  constructor
  · intro p _
    exact p.nodup.map fun _ _ h => (Grant.mk.inj h).2
  · refine (List.pairwise_map.mp index.nodup_permissions).imp fun hne => ?_
    rw [Function.onFun, List.disjoint_left]
    intro g hg hg'
    obtain ⟨_, -, rfl⟩ := List.mem_map.mp hg
    obtain ⟨_, -, heq⟩ := List.mem_map.mp hg'
    exact hne (Grant.mk.inj heq).1.symm

theorem size_eq_ncard : index.size = Set.ncard {g | g ∈ index.grants} := by
  have listed : {g | g ∈ index.grants} = (index.grants.toFinset : Set Grant) := by
    ext g
    simp
  rw [listed, Set.ncard_coe_finset, List.toFinset_card_of_nodup index.nodup_grants, grants, size,
    List.length_flatMap, List.length_flatMap]
  simp only [List.length_map]

end PermissionIndex

/-! ## Grants one after another -/

namespace PermissionTable

/-- The table has these permissions, and says of them what the grants say. -/
structure Tracks (t : PermissionTable) (names : List String) (grants : List Grant) : Prop where
  names : t.entries.map (·.name) = names
  apis : ∀ p ∈ t.entries, p.apis = (grants.filter (·.permission = p.name)).map (·.api)
  reversed : ∀ api, ((t.positionsOf api).map fun i => (t.entries[i]?).map (·.name)) =
    (grants.filter (·.api = api)).map fun g => some g.permission

variable {t : PermissionTable} {names : List String} {grants : List Grant} {g : Grant} {i : Nat}
  {p : Permission}

theorem Tracks.empty : Tracks {} [] [] :=
  ⟨rfl, by simp, by simp [positionsOf]⟩

theorem Consistent.lt_of_mem_positionsOf (h : t.Consistent) {api : String}
    (hi : i ∈ t.positionsOf api) : i < t.entries.length := by
  obtain ⟨p, hp, -⟩ := (h.byApi api i).mp hi
  exact (List.getElem?_eq_some_iff.mp hp).1

/-- The permission of each grant is there. -/
theorem Tracks.permission_mem (h : t.Tracks names grants) (hg : g ∈ grants) :
    g.permission ∈ names := by
  have mem : some g.permission ∈
      (t.positionsOf g.api).map fun i => (t.entries[i]?).map (·.name) := by
    rw [h.reversed]
    exact List.mem_map.mpr ⟨g, List.mem_filter.mpr ⟨hg, by simp⟩, rfl⟩
  obtain ⟨i, -, hi⟩ := List.mem_map.mp mem
  obtain ⟨p, hp, hname⟩ := Option.map_eq_some_iff.mp hi
  rw [← h.names, ← hname]
  exact List.mem_map_of_mem (List.mem_of_getElem? hp)

theorem Tracks.mem_apis_iff (h : t.Tracks names grants) (hp : t.entries[i]? = some p)
    (hname : p.name = g.permission) : g.api ∈ p.apis ↔ g ∈ grants := by
  rw [h.apis p (List.mem_of_getElem? hp), hname]
  simp only [List.mem_map, List.mem_filter, decide_eq_true_eq]
  constructor
  · rintro ⟨g', ⟨hg, hpermission⟩, hapi⟩
    obtain rfl : g' = g := by
      cases g'
      cases g
      simp_all
    exact hg
  · exact fun hg => ⟨g, ⟨hg, rfl⟩, rfl⟩

/-- Making an entry adds a permission without calls, if it is new. -/
theorem Tracks.entryFor (h : t.Tracks names grants) (consistent : t.Consistent) (name : String) :
    (t.entryFor name).1.Tracks (if name ∈ names then names else names ++ [name]) grants := by
  cases found : t.byName.get? name with
  | some i =>
    obtain ⟨p, hp, hname⟩ := (consistent.byName name i).mp found
    have known : name ∈ names := by
      rw [← h.names]
      exact List.mem_map.mpr ⟨p, List.mem_of_getElem? hp, hname⟩
    rw [entryFor_known found, if_pos known]
    exact h
  | none =>
    have new : name ∉ names := by
      rw [← h.names]
      intro mem
      obtain ⟨p, hp, hname⟩ := List.mem_map.mp mem
      exact consistent.byName.not_hasKey found hp hname
    rw [entryFor_new found, if_neg new]
    refine ⟨by rw [List.map_append, h.names]; rfl, ?_, ?_⟩
    · intro p hp
      rcases List.mem_append.mp hp with hp | hp
      · exact h.apis p hp
      · -- none of the grants has the new permission
        obtain rfl := List.mem_singleton.mp hp
        have none_before : grants.filter (·.permission = name) = [] := by
          rw [List.filter_eq_nil_iff]
          intro g hg hname
          exact new (of_decide_eq_true hname ▸ h.permission_mem hg)
        show [] = (grants.filter (·.permission = name)).map _
        rw [none_before, List.map_nil]
    · intro api
      rw [← h.reversed api]
      refine List.map_congr_left fun i hi => ?_
      rw [List.getElem?_append_left (consistent.lt_of_mem_positionsOf hi)]

/-- Names stay where they are when a call is put under a permission. -/
theorem map_name_modify (api : String) (j : Nat) :
    ((t.entries.modify i fun p => (p.insert api).2)[j]?).map (·.name) =
      (t.entries[j]?).map (·.name) := by
  rw [List.getElem?_modify]
  cases t.entries[j]? with
  | none => rfl
  | some q =>
    by_cases hj : i = j
    · simp [hj]
    · simp [hj]

/-- A new call is listed under its own permission, and under no other. -/
theorem Tracks.apis_modify (h : t.Tracks names grants) (consistent : t.Consistent)
    (hp : t.entries[i]? = some p) (hname : p.name = g.permission) (new : g.api ∉ p.apis) :
    ∀ q ∈ t.entries.modify i fun p => (p.insert g.api).2,
      q.apis = ((grants ++ [g]).filter (·.permission = q.name)).map (·.api) := by
  intro q hq
  obtain ⟨j, hj⟩ := List.mem_iff_getElem?.mp hq
  rw [List.getElem?_modify] at hj
  obtain ⟨old, hold, rfl⟩ := Option.map_eq_some_iff.mp hj
  rw [List.filter_append, List.map_append]
  by_cases hij : i = j
  · subst hij
    obtain rfl := Option.some.inj (hp.symm.trans hold)
    simp only [if_pos, Permission.name_insert, (Permission.insert_new new).2]
    rw [← h.apis p (List.mem_of_getElem? hp)]
    simp [hname]
  · -- the permission of the grant is at one position only
    have other : g.permission ≠ old.name := by
      intro same
      have at_i := (consistent.byName g.permission i).mpr ⟨p, hp, hname⟩
      have at_j := (consistent.byName g.permission j).mpr ⟨old, hold, same.symm⟩
      exact hij (Option.some.inj (at_i.symm.trans at_j))
    simp only [if_neg hij]
    rw [← h.apis old (List.mem_of_getElem? hold)]
    simp [other]

/-- Putting a call under its permission adds a grant, if it is new. -/
theorem Tracks.insertAt (h : t.Tracks names grants) (consistent : t.Consistent)
    (hp : t.entries[i]? = some p) (hname : p.name = g.permission) :
    (t.insertAt i g.api).Tracks names (if g ∈ grants then grants else grants ++ [g]) := by
  by_cases hg : g ∈ grants
  · rw [insertAt_known hp ((h.mem_apis_iff hp hname).mpr hg), if_pos hg]
    exact h
  · have new : g.api ∉ p.apis := mt (h.mem_apis_iff hp hname).mp hg
    rw [insertAt_new hp new, if_neg hg]
    refine ⟨?_, h.apis_modify consistent hp hname new, fun x => ?_⟩
    · rw [← h.names]
      refine List.ext_getElem? fun j => ?_
      rw [List.getElem?_map, List.getElem?_map, map_name_modify]
    · simp only [map_name_modify]
      show ((positionsOf { t with byApi := _ } x).map _) = _
      rw [positionsOf_insert, List.filter_append, List.map_append, ← h.reversed x]
      by_cases hx : x = g.api
      · subst hx
        rw [if_pos rfl, List.map_append, List.map_singleton, hp, Option.map_some, hname]
        simp
      · rw [if_neg hx]
        simp [Ne.symm hx]

theorem Tracks.insert (h : t.Tracks names grants) (consistent : t.Consistent) (g : Grant) :
    (t.insert g).Tracks (if g.permission ∈ names then names else names ++ [g.permission])
      (if g ∈ grants then grants else grants ++ [g]) := by
  obtain ⟨consistent', p, hp, hname⟩ := consistent.entryFor g.permission
  exact (h.entryFor consistent g.permission).insertAt consistent' hp hname

end PermissionTable

namespace PermissionIndex

/-- **Refinement**: grants put in one after another are tracked without their repetitions. -/
theorem tracks_foldl_insert (grants : List Grant) :
    (grants.foldl insert empty).Tracks (distinct (grants.map (·.permission)))
      (distinct grants) := by
  induction grants using List.reverseRecOn with
  | nil => exact .empty
  | append_singleton grants g ih =>
    have step := ih.insert (grants.foldl insert empty).consistent g
    rw [List.foldl_append, List.map_append, List.map_singleton, distinct_append_singleton,
      distinct_append_singleton]
    simp only [mem_distinct] at step
    exact step

variable {index : PermissionIndex} {names : List String} {grants : List Grant}

theorem permissions_of_tracks (h : index.Tracks names grants) : index.permissions = names := h.names

theorem apis_of_tracks (h : index.Tracks names grants) (permission : String) :
    index.apis permission = (grants.filter (·.permission = permission)).map (·.api) := by
  by_cases known : permission ∈ index.permissions
  · obtain ⟨p, hp⟩ := exists_permission?_iff.mpr known
    obtain ⟨hmem, rfl⟩ := permission?_eq_some_iff.mp hp
    rw [apis_of_permission? hp, h.apis p hmem]
  · rw [apis, get?_of_not_mem known, Option.getD_none, eq_comm, List.map_eq_nil_iff,
      List.filter_eq_nil_iff]
    intro g hg hname
    rw [permissions_of_tracks h] at known
    exact known (of_decide_eq_true hname ▸ h.permission_mem hg)

theorem permissionsOf_of_tracks (h : index.Tracks names grants) (api : String) :
    index.permissionsOf api = (grants.filter (·.api = api)).map (·.permission) := by
  have named := congrArg (List.filterMap id) (h.reversed api)
  rw [List.filterMap_map, List.filterMap_map] at named
  rw [← List.filterMap_eq_map']
  exact named

theorem mem_grants_of_tracks (h : index.Tracks names grants) {g : Grant} :
    g ∈ index.grants ↔ g ∈ grants := by
  rw [show g = ⟨g.permission, g.api⟩ from rfl, ← mem_apis_iff, apis_of_tracks h]
  simp only [List.mem_map, List.mem_filter, decide_eq_true_eq]
  constructor
  · rintro ⟨g', ⟨hg, hpermission⟩, hapi⟩
    rwa [← hpermission, ← hapi]
  · exact fun hg => ⟨g, ⟨hg, rfl⟩, rfl⟩

end PermissionIndex

end PermissionAudit
