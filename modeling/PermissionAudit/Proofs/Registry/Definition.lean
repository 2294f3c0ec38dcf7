import PermissionAudit.Proofs.Sequence.Checked
import PermissionAudit.Registry.Basic

/-!
What registering one class definition does. A definition defines a class name
when its type, its superclass and its interfaces can be resolved; registering it
adds the class if the name is neither excluded nor taken, and otherwise leaves
the registry as it is.
-/

namespace PermissionAudit.Registry

/-- The type at an index can be resolved, and has the name. -/
def Names (dex : Dex) (index : Nat) (name : String) : Prop :=
  ∃ t, dex.type index = .ok t ∧ t.sourceName = name

/-- The definition is of the class with the name, and everything in its header can be resolved. -/
def Defines (d : Dex × Dex.ClassDef) (name : String) : Prop :=
  Names d.1 d.2.type name ∧ (∀ s ∈ d.2.superclass, ∃ n, Names d.1 s n) ∧
    ∀ i ∈ d.2.interfaces, ∃ n, Names d.1 i n

/-- The name starts with one of the exclusions. -/
def Excluded (exclusions : List String) (name : String) : Prop :=
  ∃ e ∈ exclusions, e.toList <+: name.toList

theorem isExcluded_iff {exclusions : List String} {name : String} :
    isExcluded exclusions name ↔ Excluded exclusions name := by
  simp [isExcluded, Excluded]

theorem Names.unique {dex : Dex} {index : Nat} {m n : String} (hm : Names dex index m)
    (hn : Names dex index n) : m = n := by
  obtain ⟨t, ht, rfl⟩ := hm
  obtain ⟨u, hu, rfl⟩ := hn
  rw [Except.ok.inj (ht.symm.trans hu)]

theorem Defines.unique {d : Dex × Dex.ClassDef} {m n : String} (hm : Defines d m)
    (hn : Defines d n) : m = n := hm.1.unique hn.1

theorem contains_iff {r : Registry} {name : String} :
    r.contains name ↔ name ∈ r.classes.map (·.name) := by
  simp [contains]

/-! ## Superclass and interfaces -/

theorem option_mapM_eq_ok_iff {dex : Dex} {index? : Option Nat} {t? : Option Descriptor} :
    index?.mapM dex.type = .ok t? ↔
      List.Forall₂ (fun i t => dex.type i = .ok t) index?.toList t?.toList := by
  cases index? with
  | none =>
    rw [Option.mapM_none, Option.toList_none, List.forall₂_nil_left_iff, Option.toList_eq_nil_iff]
    exact ⟨fun h => (Except.ok.inj h).symm, fun h => h ▸ rfl⟩
  | some index =>
    rw [Option.mapM_some, Option.toList_some]
    cases ht : dex.type index with
    | error e => cases t? <;> simp [ht]
    | ok t =>
      cases t? <;> simp [ht, eq_comm]

theorem names_of_types {dex : Dex} {indices : List Nat} {types : List Descriptor}
    (h : List.Forall₂ (fun i t => dex.type i = .ok t) indices types) :
    List.Forall₂ (Names dex) indices (types.map (·.sourceName)) := by
  rw [List.forall₂_map_right_iff]
  exact h.imp fun i t ht => ⟨t, ht, rfl⟩

theorem parents_eq_ok {dex : Dex} {c : Dex.ClassDef} {superclass : Option Descriptor}
    {interfaces : List Descriptor} (h : parents dex c = .ok (superclass, interfaces)) :
    List.Forall₂ (Names dex) c.superclass.toList (superclass.map (·.sourceName)).toList ∧
      List.Forall₂ (Names dex) c.interfaces (interfaces.map (·.sourceName)) := by
  simp only [parents, bind_eq_ok_iff, mapM_eq_ok_iff, option_mapM_eq_ok_iff] at h
  obtain ⟨s, hs, is, hi, heq⟩ := h
  obtain ⟨rfl, rfl⟩ := Prod.mk.inj (Except.ok.inj heq)
  exact ⟨by simpa [Option.toList_map] using names_of_types hs, names_of_types hi⟩

theorem exists_parents_eq_ok {dex : Dex} {c : Dex.ClassDef}
    (hs : ∀ s ∈ c.superclass, ∃ n, Names dex s n) (hi : ∀ i ∈ c.interfaces, ∃ n, Names dex i n) :
    ∃ superclass interfaces, parents dex c = .ok (superclass, interfaces) := by
  have superclass : ∃ t?, c.superclass.mapM dex.type = .ok t? := by
    cases hc : c.superclass with
    | none => exact ⟨none, rfl⟩
    | some s =>
      obtain ⟨-, t, ht, -⟩ := hs s hc
      exact ⟨some t, by simp [ht]⟩
  obtain ⟨t?, ht⟩ := superclass
  obtain ⟨ts, hts⟩ := exists_mapM_eq_ok (f := dex.type) fun i h =>
    let ⟨_, t, ht, _⟩ := hi i h
    ⟨t, ht⟩
  refine ⟨t?, ts, ?_⟩
  simp only [parents, bind_eq_ok_iff]
  exact ⟨t?, ht, ts, hts, rfl⟩

/-! ## Members -/

/-- The methods of a definition that have a name. -/
def members (name : String) (dex : Dex) (c : Dex.ClassDef) : List Member :=
  c.methods.filterMap fun encoded => (inspect name dex encoded).value

theorem inspect_eq_none_iff {name : String} {dex : Dex} {encoded : Dex.EncodedMethod} :
    (inspect name dex encoded).value = none ↔ (memberName dex encoded).isOk = false := by
  rw [inspect]
  cases memberName dex encoded with
  | error e => simp [Except.isOk, Except.toBool]
  | ok n =>
    simp only [Except.isOk, Except.toBool]
    split <;> simp

theorem inspect_eq_some {name : String} {dex : Dex} {encoded : Dex.EncodedMethod} {m : Member}
    (h : (inspect name dex encoded).value = some m) :
    memberName dex encoded = .ok m.name ∧ m.encoded = encoded := by
  rw [inspect] at h
  cases hn : memberName dex encoded with
  | error e => simp [hn] at h
  | ok n =>
    simp only [hn] at h
    split at h <;> simp at h <;> subst h <;> exact ⟨rfl, rfl⟩

/-- The members stand for the methods whose name can be resolved, in order. -/
theorem map_encoded_members (name : String) (dex : Dex) (c : Dex.ClassDef) :
    (members name dex c).map (·.encoded) =
      c.methods.filter fun encoded => (memberName dex encoded).isOk := by
  rw [members]
  induction c.methods with
  | nil => rfl
  | cons encoded rest ih =>
    cases h : (inspect name dex encoded).value with
    | none =>
      have hn := inspect_eq_none_iff.mp h
      simp only [List.filterMap_cons, h, List.filter_cons, hn, ih]
      rfl
    | some m =>
      obtain ⟨hn, he⟩ := inspect_eq_some h
      simp only [List.filterMap_cons, h, List.map_cons, ih, he, List.filter_cons, hn]
      rfl

theorem memberName_of_mem_members {name : String} {dex : Dex} {c : Dex.ClassDef} {m : Member}
    (h : m ∈ members name dex c) : memberName dex m.encoded = .ok m.name := by
  obtain ⟨encoded, -, hm⟩ := List.mem_filterMap.mp h
  obtain ⟨hn, rfl⟩ := inspect_eq_some hm
  exact hn

/-! ## One registration -/

/-- **A registration** adds the class of a definition whose name is free and not excluded;
it changes nothing for any other definition. -/
theorem register_cases (exclusions : List String) (r : Registry) (d : Dex × Dex.ClassDef) :
    ((register exclusions r d).value = r ∧
        ∀ name, Defines d name → Excluded exclusions name ∨ name ∈ r.classes.map (·.name)) ∨
      ∃ name superclass interfaces, Defines d name ∧ ¬ Excluded exclusions name ∧
        name ∉ r.classes.map (·.name) ∧ parents d.1 d.2 = .ok (superclass, interfaces) ∧
        (register exclusions r d).value =
          r.add d.1 name superclass interfaces (members name d.1 d.2) := by
  obtain ⟨dex, c⟩ := d
  cases ht : dex.type c.type with
  | error e =>
    refine .inl ⟨by simp [register, ht], fun name hd => ?_⟩
    obtain ⟨⟨t, ht', -⟩, -⟩ := hd
    exact absurd (ht.symm.trans ht') (by simp)
  | ok type =>
    have named : Names dex c.type type.sourceName := ⟨type, ht, rfl⟩
    by_cases he : isExcluded exclusions type.sourceName
    · refine .inl ⟨by simp [register, ht, he], fun name hd => ?_⟩
      exact .inl (hd.1.unique named ▸ isExcluded_iff.mp he)
    cases hp : parents dex c with
    | error e =>
      refine .inl ⟨by simp [register, ht, he, hp], fun name hd => ?_⟩
      obtain ⟨_, _, hok⟩ := exists_parents_eq_ok hd.2.1 hd.2.2
      exact absurd (hp.symm.trans hok) (by simp)
    | ok resolved =>
      obtain ⟨superclass, interfaces⟩ := resolved
      by_cases hc : r.contains type.sourceName
      · refine .inl ⟨by simp [register, ht, he, hp, hc], fun name hd => ?_⟩
        exact .inr (hd.1.unique named ▸ contains_iff.mp hc)
      · obtain ⟨hs, hi⟩ := parents_eq_ok hp
        have header {indices : List Nat} {names : List String}
            (h : List.Forall₂ (Names dex) indices names) : ∀ i ∈ indices, ∃ n, Names dex i n :=
          fun i hi => let ⟨n, _, hn⟩ := exists_of_forall₂_left h hi; ⟨n, hn⟩
        refine .inr ⟨type.sourceName, superclass, interfaces, ⟨named, ?_, header hi⟩,
          fun hx => he (isExcluded_iff.mpr hx), fun hx => hc (contains_iff.mpr hx), rfl, ?_⟩
        · exact fun s h => header hs s (Option.mem_toList.mpr h)
        · simp [register, ht, he, hp, hc, members, Logged.value_mapM, List.filterMap_map]

end PermissionAudit.Registry
