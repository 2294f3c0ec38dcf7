import Mathlib.Data.List.Sort
import PermissionAudit.Proofs.Registry.Origin

/-!
Exclusions only filter. Whether a definition is the first of its name has nothing
to do with the exclusions, so the definitions that become classes under them are
those that would become classes anyway and whose names stay. Classes made from one
definition say the same, apart from the numbers of their methods.
-/

namespace PermissionAudit.Registry

/-- The methods differ at most in their numbers; both have the same body, or fail alike. -/
structure SameMethod (r r' : Registry) (m m' : MethodInfo) : Prop where
  name : m.name = m'.name
  className : m.className = m'.className
  hasBody : m.hasBody = m'.hasBody
  body : r.toProgram.body m = r'.toProgram.body m'

/-- The classes differ at most in the numbers of their methods. -/
structure SameClass (r r' : Registry) (c c' : ClassInfo) : Prop where
  name : c.name = c'.name
  superclass : c.superclass = c'.superclass
  interfaces : c.interfaces = c'.interfaces
  phantom : c.phantom = c'.phantom
  methods : List.Forall₂ (SameMethod r r') c.methods c'.methods

instance (exclusions : List String) (name : String) : Decidable (Excluded exclusions name) :=
  decidable_of_iff _ isExcluded_iff

/-! ## One definition, two registries -/

theorem Names.rightUnique (dex : Dex) : Relator.RightUnique (Names dex) := by
  intro index m n hm hn
  exact hm.unique hn

theorem FromEncoded.sameMethod {r r' : Registry} {dex : Dex} {className : String}
    {encoded : Dex.EncodedMethod} {m m' : MethodInfo} (h : FromEncoded r dex className encoded m)
    (h' : FromEncoded r' dex className encoded m') : SameMethod r r' m m' where
  name := Except.ok.inj (h.name.symm.trans h'.name)
  className := h.className_eq.trans h'.className_eq.symm
  hasBody := h.hasBody_eq.trans h'.hasBody_eq.symm
  body := (body_eq_of_fromEncoded h).trans (body_eq_of_fromEncoded h').symm

theorem FromDefinition.sameClass {r r' : Registry} {d : Dex × Dex.ClassDef} {c c' : ClassInfo}
    (h : FromDefinition r d c) (h' : FromDefinition r' d c') : SameClass r r' c c' := by
  have name : c.name = c'.name := h.name.unique h'.name
  have unique := Names.rightUnique d.1
  have superclass := List.right_unique_forall₂' unique h.superclass h'.superclass
  refine ⟨name, ?_, List.right_unique_forall₂' unique h.interfaces h'.interfaces, ?_, ?_⟩
  · apply Option.ext
    intro s
    rw [← Option.mem_toList, superclass, Option.mem_toList]
  · rw [h.phantom_eq, h'.phantom_eq, name]
  · have methods := h.methods
    rw [name] at methods
    exact forall₂_of_common (fun _ _ _ hm hm' => hm.sameMethod hm') methods h'.methods

/-! ## Origins with and without exclusions -/

/-- Which definition is the first of a name does not depend on the exclusions. -/
theorem isOrigin_iff {exclusions : List String} {defs : List (Dex × Dex.ClassDef)} {p : Nat}
    {name : String} :
    IsOrigin exclusions defs p name ↔ ¬ Excluded exclusions name ∧ IsOrigin [] defs p name := by
  constructor
  · intro h
    exact ⟨h.not_excluded, by simp [Excluded], h.defines, h.first⟩
  · rintro ⟨he, h⟩
    exact ⟨he, h.defines, h.first⟩

theorem IsOrigin.unique {exclusions exclusions' : List String} {defs : List (Dex × Dex.ClassDef)}
    {p : Nat} {name name' : String} (h : IsOrigin exclusions defs p name)
    (h' : IsOrigin exclusions' defs p name') : name = name' := by
  obtain ⟨d, hd, hdef⟩ := h.defines
  obtain ⟨d', hd', hdef'⟩ := h'.defines
  obtain rfl : d = d' := Option.some.inj (hd.symm.trans hd')
  exact hdef.unique hdef'

namespace Registered

variable {exclusions : List String} {defs : List (Dex × Dex.ClassDef)} {r all : Registry}
  {origins allOrigins : List Nat}

open Classical in
/-- The origins under exclusions are those of names that stay, in the same order. -/
theorem origins_eq_filter (h : Registered exclusions defs r origins)
    (hall : Registered [] defs all allOrigins) :
    origins = allOrigins.filter fun p => ∃ name, IsOrigin exclusions defs p name := by
  apply h.sorted.eq_of_mem_iff (hall.sorted.sublist List.filter_sublist)
  intro p
  rw [List.mem_filter, decide_eq_true_iff, h.mem_iff, hall.mem_iff]
  constructor
  · rintro ⟨name, ho⟩
    exact ⟨⟨name, (isOrigin_iff.mp ho).2⟩, name, ho⟩
  · rintro ⟨-, ho⟩
    exact ho

/-- The classes whose names stay, with the origins under the exclusions. -/
theorem made_filter (h : Registered exclusions defs r origins)
    (hall : Registered [] defs all allOrigins) :
    List.Forall₂ (fun p c => IsOrigin [] defs p c.name ∧
        ∃ d, defs[p]? = some d ∧ FromDefinition all d c)
      origins (all.classes.filter fun c => ¬ Excluded exclusions c.name) := by
  rw [h.origins_eq_filter hall]
  refine List.rel_filter ?_ hall.made
  rintro p c ⟨ho, -⟩
  simp only [decide_eq_true_iff]
  constructor
  · rintro ⟨name, hname⟩
    exact ho.unique hname ▸ hname.not_excluded
  · intro he
    exact ⟨c.name, isOrigin_iff.mpr ⟨he, ho⟩⟩

/-- A registry under exclusions holds the classes of one without whose names stay. -/
theorem sameClasses (h : Registered exclusions defs r origins)
    (hall : Registered [] defs all allOrigins) :
    List.Forall₂ (SameClass r all) r.classes
      (all.classes.filter fun c => ¬ Excluded exclusions c.name) := by
  refine forall₂_of_common ?_ h.made (h.made_filter hall)
  rintro p c c' ⟨-, d, hd, hfrom⟩ ⟨-, d', hd', hfrom'⟩
  obtain rfl : d = d' := Option.some.inj (hd.symm.trans hd')
  exact hfrom.sameClass hfrom'

end Registered

/-- **Exclusions only filter**: registered under exclusions are, in order, the classes registered
without any whose names start with none of them. They have the same superclass, interfaces,
phantom flag and methods, the same bodies or errors, and numbers that are given out anew. -/
theorem ofDexs_exclusions_filter (dexs : List Dex) (exclusions : List String) :
    let r := (ofDexs dexs exclusions).value
    let all := (ofDexs dexs []).value
    List.Forall₂ (SameClass r all) r.classes
        (all.classes.filter fun c => ∀ e ∈ exclusions, ¬ e.toList <+: c.name.toList) ∧
      (r.classes.flatMap (·.methods)).map (·.uid) = List.range r.methodCount := by
  intro r all
  obtain ⟨origins, h⟩ := exists_registered dexs exclusions
  obtain ⟨allOrigins, hall⟩ := exists_registered dexs []
  have classes := h.sameClasses hall
  simp only [Excluded, not_exists, not_and] at classes
  exact ⟨classes, h.uids⟩

end PermissionAudit.Registry
