import Mathlib.Data.List.Basic
import Mathlib.Data.List.Induction
import PermissionAudit.Sequence.Distinct
import PermissionAudit.Usage.Report

/-!
Reports as groupings. `UsageReport.ofSites` is the report of a list of sites: one
entry per API name in order of first occurrence, with the sites of that name in
order. Recording one site after another gives the report of the sites whose
place had not been recorded before.
-/

namespace PermissionAudit

/-! ## One more site -/

namespace UsageReport

variable {r : UsageReport} {site : CallSite}

theorem entryFor_known {name : String} {position : Nat}
    (h : r.positions.get? name = some position) : r.entryFor name = (r, position) := by
  unfold entryFor
  split
  · rename_i found
    rw [Option.some.inj (found.symm.trans h)]
  · rename_i new
    cases new.symm.trans h

theorem entryFor_new {name : String} (h : r.positions.get? name = none) :
    (r.entryFor name).1.entries = r.entries ++ [⟨name, []⟩] ∧
      (r.entryFor name).1.positions = r.positions.insert name r.entries.length ∧
      (r.entryFor name).2 = r.entries.length := by
  unfold entryFor
  split
  · rename_i found
    cases found.symm.trans h
  · exact ⟨rfl, rfl, rfl⟩

/-- A site of a known name goes to the entry at the position of the name. -/
theorem add_known {position : Nat} (h : r.positions.get? site.apiName = some position) :
    (r.add site).entries = r.entries.modify position (·.addCall site) ∧
      (r.add site).positions = r.positions := by
  rw [add, entryFor_known h]
  exact ⟨rfl, rfl⟩

/-- A site of a new name makes the last entry. -/
theorem add_new (h : r.positions.get? site.apiName = none) :
    (r.add site).entries = r.entries ++ [⟨site.apiName, [site]⟩] ∧
      (r.add site).positions = r.positions.insert site.apiName r.entries.length := by
  obtain ⟨entries, positions, position⟩ := entryFor_new h
  refine ⟨?_, positions⟩
  show (r.entryFor site.apiName).1.entries.modify (r.entryFor site.apiName).2 _ = _
  rw [entries, position, modify_concat_length]
  rfl

/-- Positions and entries are aligned. -/
theorem positions_get?_iff (r : UsageReport) (name : String) (i : Nat) :
    r.positions.get? name = some i ↔ (r.entries.map (·.apiName))[i]? = some name := by
  rw [r.aligned name i, List.getElem?_map, Option.map_eq_some_iff]

/-- An entry is found by its name, and by no other. -/
theorem get?_eq_some_iff {name : String} {u : ApiUsage} :
    r.get? name = some u ↔ u ∈ r.entries ∧ u.apiName = name := by
  rw [get?, Option.bind_eq_bind, Option.bind_eq_some_iff]
  constructor
  · rintro ⟨position, found, entry⟩
    obtain ⟨v, hv, hname⟩ := (r.aligned name position).mp found
    obtain rfl := Option.some.inj (entry.symm.trans hv)
    exact ⟨List.mem_of_getElem? entry, hname⟩
  · rintro ⟨hu, hname⟩
    obtain ⟨position, entry⟩ := List.mem_iff_getElem?.mp hu
    exact ⟨position, (r.aligned name position).mpr ⟨u, entry, hname⟩, entry⟩

theorem get?_eq_none_of_not_mem {name : String} (h : name ∉ r.entries.map (·.apiName)) :
    r.get? name = none := by
  rw [Option.eq_none_iff_forall_ne_some]
  intro u hu
  obtain ⟨hmem, hname⟩ := get?_eq_some_iff.mp hu
  exact h (List.mem_map.mpr ⟨u, hmem, hname⟩)

end UsageReport

/-! ## Grouping -/

/-- The positions of keys in a list, put in one after another. -/
def KeyMap.ofKeys (keys : List String) : KeyMap Nat :=
  keys.zipIdx.foldl (fun positions key => positions.insert key.1 key.2) .leaf

theorem KeyMap.ofKeys_append_singleton (keys : List String) (key : String) :
    ofKeys (keys ++ [key]) = (ofKeys keys).insert key keys.length := by
  rw [ofKeys, List.zipIdx_append, List.foldl_append, List.zipIdx_singleton, Nat.zero_add]
  rfl

theorem KeyMap.locates_ofKeys {α : Type} {key : α → String} {items : List α}
    (h : (items.map key).Nodup) :
    (ofKeys (items.map key)).Locates items fun x k => key x = k := by
  induction items using List.reverseRecOn with
  | nil => exact .nil
  | append_singleton items x ih =>
    rw [List.map_append, List.map_singleton] at h ⊢
    obtain ⟨nodup, -, apart⟩ := List.nodup_append.mp h
    have located := ih nodup
    have new : (ofKeys (items.map key)).get? (key x) = none := by
      rw [Option.eq_none_iff_forall_ne_some]
      intro i found
      obtain ⟨y, hy, same⟩ := (located (key x) i).mp found
      exact apart _ (List.mem_map_of_mem (List.mem_of_getElem? hy)) _ (by simp) same
    rw [ofKeys_append_singleton, List.length_map]
    exact located.push new fun _ => eq_comm

namespace UsageReport

/-- The sites of each API name, the names in order of first occurrence. -/
def groups (sites : List CallSite) : List ApiUsage :=
  (distinct (sites.map (·.apiName))).map fun name => ⟨name, sites.filter (·.apiName = name)⟩

theorem map_apiName_groups (sites : List CallSite) :
    (groups sites).map (·.apiName) = distinct (sites.map (·.apiName)) := by
  rw [groups, List.map_map]
  exact List.map_id _

theorem nodup_groups (sites : List CallSite) : ((groups sites).map (·.apiName)).Nodup := by
  rw [map_apiName_groups]
  exact nodup_distinct _

/-- The report with the groups of some sites as its entries. -/
def ofSites (sites : List CallSite) : UsageReport :=
  ⟨groups sites, .ofKeys ((groups sites).map (·.apiName)),
    KeyMap.locates_ofKeys (nodup_groups sites)⟩

theorem positions_ofSites (sites : List CallSite) :
    (ofSites sites).positions = .ofKeys (distinct (sites.map (·.apiName))) :=
  congrArg KeyMap.ofKeys (map_apiName_groups sites)

theorem filter_append_site (sites : List CallSite) (site : CallSite) (name : String) :
    (sites ++ [site]).filter (·.apiName = name) =
      if name = site.apiName then sites.filter (·.apiName = name) ++ [site]
      else sites.filter (·.apiName = name) := by
  rw [List.filter_append]
  by_cases heq : site.apiName = name
  · simp [heq]
  · simp [heq, Ne.symm heq]

/-- One more site of a known name changes the group at the position of that name. -/
theorem groups_known {sites : List CallSite} {site : CallSite} {i : Nat}
    (h : ((groups sites).map (·.apiName))[i]? = some site.apiName) :
    groups (sites ++ [site]) = (groups sites).modify i (·.addCall site) := by
  have names := map_apiName_groups sites
  have known : site.apiName ∈ sites.map (·.apiName) :=
    mem_distinct.mp (names ▸ List.mem_of_getElem? h)
  refine List.ext_getElem? fun j => ?_
  rw [groups, List.map_append, List.map_singleton, distinct_append_singleton, if_pos known,
    List.getElem?_modify, groups, List.getElem?_map, List.getElem?_map]
  rw [names] at h
  cases hj : (distinct (sites.map (·.apiName)))[j]? with
  | none => rfl
  | some name =>
    simp only [Option.map_some, filter_append_site]
    by_cases hi : i = j
    · subst hi
      obtain rfl := Option.some.inj (hj.symm.trans h)
      rw [if_pos rfl]
      simp only [if_pos]
      rfl
    · -- no other group has the name
      have hne : name ≠ site.apiName := by
        rintro rfl
        have hlt := (List.getElem?_eq_some_iff.mp h).1
        exact hi ((List.getElem?_inj hlt (nodup_distinct _)).mp (h.trans hj.symm))
      rw [if_neg hne]
      simp only [if_neg hi]
      rfl

/-- One more site of a new name makes the last group. -/
theorem groups_new {sites : List CallSite} {site : CallSite}
    (h : site.apiName ∉ (groups sites).map (·.apiName)) :
    groups (sites ++ [site]) = groups sites ++ [⟨site.apiName, [site]⟩] := by
  rw [map_apiName_groups] at h
  have new : site.apiName ∉ sites.map (·.apiName) := fun known => h (mem_distinct.mpr known)
  have none_before : sites.filter (·.apiName = site.apiName) = [] := by
    rw [List.filter_eq_nil_iff]
    intro s hs heq
    exact new (List.mem_map.mpr ⟨s, hs, by simpa using heq⟩)
  rw [groups, List.map_append, List.map_singleton, distinct_append_singleton, if_neg new,
    List.map_append, List.map_singleton, filter_append_site, if_pos rfl, none_before,
    List.nil_append, groups]
  refine congrArg (· ++ _) (List.map_congr_left fun name hname => ?_)
  have hne : name ≠ site.apiName := fun heq => h (heq ▸ hname)
  rw [filter_append_site, if_neg hne]

/-- Adding a site to the report of some sites gives the report with it at the end. -/
theorem ofSites_add (sites : List CallSite) (site : CallSite) :
    (ofSites sites).add site = ofSites (sites ++ [site]) := by
  cases found : (ofSites sites).positions.get? site.apiName with
  | some i =>
    obtain ⟨u, hu, hname⟩ := ((ofSites sites).aligned _ i).mp found
    have name : ((groups sites).map (·.apiName))[i]? = some site.apiName := by
      rw [List.getElem?_map, show (groups sites)[i]? = some u from hu, Option.map_some, hname]
    have known : site.apiName ∈ sites.map (·.apiName) :=
      mem_distinct.mp (map_apiName_groups sites ▸ List.mem_of_getElem? name)
    obtain ⟨entries, positions⟩ := add_known found
    refine UsageReport.ext (entries.trans (groups_known name).symm) (positions.trans ?_)
    rw [positions_ofSites, positions_ofSites, List.map_append, List.map_singleton,
      distinct_append_singleton, if_pos known]
  | none =>
    have new : site.apiName ∉ (groups sites).map (·.apiName) := by
      intro mem
      obtain ⟨u, hu, hname⟩ := List.mem_map.mp mem
      exact (ofSites sites).aligned.not_hasKey found hu hname
    obtain ⟨entries, positions⟩ := add_new found
    refine UsageReport.ext (entries.trans (groups_new new).symm) (positions.trans ?_)
    show _ = KeyMap.ofKeys ((groups (sites ++ [site])).map _)
    rw [groups_new new, List.map_append, List.map_singleton, KeyMap.ofKeys_append_singleton,
      List.length_map]
    rfl

theorem map_apiName_ofSites (sites : List CallSite) :
    (ofSites sites).entries.map (·.apiName) = distinct (sites.map (·.apiName)) :=
  map_apiName_groups sites

theorem calls_of_mem_ofSites {sites : List CallSite} {u : ApiUsage}
    (h : u ∈ (ofSites sites).entries) : u.calls = sites.filter (·.apiName = u.apiName) := by
  obtain ⟨name, -, rfl⟩ := List.mem_map.mp h
  rfl

/-- Grouping only reorders: each site is in exactly one entry. -/
theorem flatMap_filter_perm {names : List String} (hn : names.Nodup) {sites : List CallSite}
    (h : ∀ s ∈ sites, s.apiName ∈ names) :
    (names.flatMap fun name => sites.filter (·.apiName = name)).Perm sites := by
  induction names generalizing sites with
  | nil =>
    cases sites with
    | nil => exact List.Perm.nil
    | cons s rest => exact absurd (h s (by simp)) (by simp)
  | cons name rest ih =>
    obtain ⟨hname, hrest⟩ := List.nodup_cons.mp hn
    -- what the other names select is in what this one leaves
    let left := sites.filter fun s => !decide (s.apiName = name)
    have others : (rest.flatMap fun other => sites.filter (·.apiName = other)) =
        rest.flatMap fun other => left.filter (·.apiName = other) := by
      refine List.flatMap_congr fun other hother => ?_
      rw [List.filter_filter]
      refine List.filter_congr fun s _ => ?_
      have hne : other ≠ name := fun heq => hname (heq ▸ hother)
      by_cases hs : s.apiName = other
      · simp [hs, hne]
      · simp [hs]
    have hleft : ∀ s ∈ left, s.apiName ∈ rest := by
      intro s hs
      obtain ⟨hmem, hne⟩ := List.mem_filter.mp hs
      exact (List.mem_cons.mp (h s hmem)).resolve_left (by simpa using hne)
    rw [List.flatMap_cons, others]
    exact ((ih hrest hleft).append_left _).trans (List.filter_append_perm _ _)

/-- **Nothing lost, nothing twice**: the entries hold the sites, reordered. -/
theorem flatMap_calls_ofSites (sites : List CallSite) :
    ((ofSites sites).entries.flatMap (·.calls)).Perm sites := by
  show ((groups sites).flatMap _).Perm sites
  rw [groups, List.flatMap_map]
  refine flatMap_filter_perm (nodup_distinct _) fun s hs => ?_
  exact mem_distinct.mpr (List.mem_map_of_mem hs)

end UsageReport

/-! ## Recording -/

namespace UsageLedger

/-- Records sites one after another. -/
def recordAll (l : UsageLedger) (sites : List CallSite) : UsageLedger :=
  sites.foldl (fun l site => (l.record site).2) l

theorem recordAll_append (l : UsageLedger) (xs ys : List CallSite) :
    l.recordAll (xs ++ ys) = (l.recordAll xs).recordAll ys := by
  rw [recordAll, List.foldl_append]
  rfl

/-- The ledger after a run of records: the first site of each place has been kept. -/
theorem recordAll_empty (sites : List CallSite) :
    empty.recordAll sites =
      ⟨.ofSites (distinctBy CallSite.place sites),
        ((distinctBy CallSite.place sites).map CallSite.place).reverse⟩ := by
  induction sites using List.reverseRecOn with
  | nil => rfl
  | append_singleton sites site ih =>
    have known : site.place ∈ (empty.recordAll sites).places ↔
        site.place ∈ sites.map CallSite.place := by
      rw [ih, List.mem_reverse, map_distinctBy, mem_distinct]
    rw [recordAll_append, distinctBy_append_singleton]
    show ((empty.recordAll sites).record site).2 = _
    rw [record]
    by_cases h : site.place ∈ sites.map CallSite.place
    · rw [if_pos (known.mpr h), if_pos h, ih]
    · rw [if_neg (mt known.mp h), if_neg h, ih, UsageReport.ofSites_add, List.map_append,
        List.reverse_append]
      rfl

end UsageLedger

end PermissionAudit
