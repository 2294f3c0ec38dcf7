import Mathlib.Data.List.Nodup
import Mathlib.Data.Nat.Find
import PermissionAudit.Proofs.Registry.Body
import PermissionAudit.Proofs.Registry.Definition
import PermissionAudit.Sequence.Fold

/-!
Where registered classes and methods come from. A class is made from the first
definition of its name, and a method from one encoded method of that definition;
the number of a method leads back to that encoded method. One registration keeps
this relation between the definitions seen so far and the registry.
-/

namespace PermissionAudit.Registry

/-- The definition at a position is the first of a name that is not excluded. -/
structure IsOrigin (exclusions : List String) (defs : List (Dex × Dex.ClassDef)) (p : Nat)
    (name : String) : Prop where
  not_excluded : ¬ Excluded exclusions name
  defines : ∃ d, defs[p]? = some d ∧ Defines d name
  first : ∀ d ∈ defs.take p, ¬ Defines d name

/-- The method is made from the encoded one, and its number leads back there. -/
structure FromEncoded (r : Registry) (dex : Dex) (className : String)
    (encoded : Dex.EncodedMethod) (m : MethodInfo) : Prop where
  name : memberName dex encoded = .ok m.name
  className_eq : m.className = className
  hasBody_eq : m.hasBody = encoded.hasCode
  entry : r.entries[m.uid]? = some ⟨dex, encoded⟩

/-- The class is made from the definition, with the methods whose name can be resolved. -/
structure FromDefinition (r : Registry) (d : Dex × Dex.ClassDef) (c : ClassInfo) : Prop where
  name : Names d.1 d.2.type c.name
  superclass : List.Forall₂ (Names d.1) d.2.superclass.toList c.superclass.toList
  interfaces : List.Forall₂ (Names d.1) d.2.interfaces c.interfaces
  phantom_eq : c.phantom = isPhantom (members c.name d.1 d.2)
  methods : List.Forall₂ (FromEncoded r d.1 c.name)
    (d.2.methods.filter fun encoded => (memberName d.1 encoded).isOk) c.methods

/-- What a registry says about the definitions it was made from; `origins` are the positions of
the definitions that became classes. -/
structure Registered (exclusions : List String) (defs : List (Dex × Dex.ClassDef)) (r : Registry)
    (origins : List Nat) : Prop where
  sorted : origins.Pairwise (· < ·)
  mem_iff : ∀ p, p ∈ origins ↔ ∃ name, IsOrigin exclusions defs p name
  made : List.Forall₂ (fun p c => IsOrigin exclusions defs p c.name ∧
    ∃ d, defs[p]? = some d ∧ FromDefinition r d c) origins r.classes
  names_nodup : (r.classes.map (·.name)).Nodup
  uids : (r.classes.flatMap (·.methods)).map (·.uid) = List.range r.methodCount
  entries_length : r.entries.length = r.methodCount
  classCount_eq : r.classCount = r.classes.length

/-! ## First definitions -/

theorem exists_isOrigin {exclusions : List String} {defs : List (Dex × Dex.ClassDef)}
    {name : String} (he : ¬ Excluded exclusions name) (hd : ∃ d ∈ defs, Defines d name) :
    ∃ p, IsOrigin exclusions defs p name := by
  classical
  have found : ∃ p : Nat, ∃ d, defs[p]? = some d ∧ Defines d name := by
    obtain ⟨d, hmem, hd⟩ := hd
    obtain ⟨p, hp⟩ := List.mem_iff_getElem?.mp hmem
    exact ⟨p, d, hp, hd⟩
  -- the least position that defines the name is the first
  refine ⟨Nat.find found, he, Nat.find_spec found, fun d hmem hdef => ?_⟩
  obtain ⟨q, hq, rfl⟩ := List.mem_take_iff_getElem.mp hmem
  have hlt : q < Nat.find found := by omega
  exact Nat.find_min found hlt ⟨defs[q], List.getElem?_eq_getElem _, hdef⟩

/-- One more definition is an origin if it is the first of its name; no other position changes. -/
theorem isOrigin_append_singleton {exclusions : List String} {defs : List (Dex × Dex.ClassDef)}
    {d : Dex × Dex.ClassDef} {p : Nat} {name : String} :
    IsOrigin exclusions (defs ++ [d]) p name ↔ IsOrigin exclusions defs p name ∨
      p = defs.length ∧ ¬ Excluded exclusions name ∧ Defines d name ∧
        ∀ d' ∈ defs, ¬ Defines d' name := by
  -- the position lies before the new definition, at it, or behind all
  rcases Nat.lt_trichotomy p defs.length with hlt | rfl | hgt
  · have htake : (defs ++ [d]).take p = defs.take p := List.take_append_of_le_length (Nat.le_of_lt hlt)
    have hget : (defs ++ [d])[p]? = defs[p]? := List.getElem?_append_left hlt
    constructor
    · rintro ⟨he, hd, hf⟩
      exact .inl ⟨he, hget ▸ hd, htake ▸ hf⟩
    · rintro (⟨he, hd, hf⟩ | ⟨rfl, -⟩)
      · exact ⟨he, hget.symm ▸ hd, htake.symm ▸ hf⟩
      · exact absurd hlt (Nat.lt_irrefl _)
  · constructor
    · rintro ⟨he, ⟨d', hget, hd⟩, hf⟩
      simp only [List.getElem?_concat_length, Option.some.injEq] at hget
      subst hget
      exact .inr ⟨rfl, he, hd, by simpa using hf⟩
    · rintro (⟨-, ⟨d', hget, -⟩, -⟩ | ⟨-, he, hd, hf⟩)
      · simp at hget
      · exact ⟨he, ⟨d, by simp, hd⟩, by simpa using hf⟩
  · constructor
    · rintro ⟨-, ⟨d', hget, -⟩, -⟩
      rw [List.getElem?_eq_none (by simp; omega)] at hget
      cases hget
    · rintro (⟨-, ⟨d', hget, -⟩, -⟩ | ⟨rfl, -⟩)
      · rw [List.getElem?_eq_none (Nat.le_of_lt hgt)] at hget
        cases hget
      · exact absurd hgt (Nat.lt_irrefl _)

/-! ## Methods and classes -/

theorem FromEncoded.mono {r r' : Registry} {dex : Dex} {className : String}
    {encoded : Dex.EncodedMethod} {m : MethodInfo} (h : FromEncoded r dex className encoded m)
    (grown : r.entries <+: r'.entries) : FromEncoded r' dex className encoded m :=
  { h with entry := getElem?_of_prefix grown h.entry }

theorem FromDefinition.mono {r r' : Registry} {d : Dex × Dex.ClassDef} {c : ClassInfo}
    (h : FromDefinition r d c) (grown : r.entries <+: r'.entries) : FromDefinition r' d c :=
  { h with methods := h.methods.imp fun _ _ hm => hm.mono grown }

theorem FromDefinition.defines {r : Registry} {d : Dex × Dex.ClassDef} {c : ClassInfo}
    (h : FromDefinition r d c) : Defines d c.name := by
  refine ⟨h.name, fun s hs => ?_, fun i hi => ?_⟩
  · obtain ⟨n, -, hn⟩ := exists_of_forall₂_left h.superclass (Option.mem_toList.mpr hs)
    exact ⟨n, hn⟩
  · obtain ⟨n, -, hn⟩ := exists_of_forall₂_left h.interfaces hi
    exact ⟨n, hn⟩

/-- The numbers given to the members of a class lead to its entries, which are added last. -/
theorem fromEncoded_methodInfos {r : Registry} {entries : List MethodEntry} {dex : Dex}
    {name : String} {ms : List Member} (named : ∀ m ∈ ms, memberName dex m.encoded = .ok m.name)
    (hr : r.entries = entries ++ ms.map fun m => ⟨dex, m.encoded⟩) :
    List.Forall₂ (FromEncoded r dex name) (ms.map (·.encoded))
      (methodInfos name entries.length ms) := by
  -- pair each member with the number that it is given
  have numbered : ms.map (·.encoded) = (ms.zipIdx entries.length).map (·.1.encoded) := by
    conv_lhs => rw [← List.zipIdx_map_fst entries.length ms, List.map_map]
    rfl
  rw [numbered, methodInfos, List.forall₂_map_left_iff, List.forall₂_map_right_iff,
    List.forall₂_same]
  rintro ⟨m, uid⟩ hm
  obtain ⟨hle, hget⟩ := List.mk_mem_zipIdx_iff_le_and_getElem?_sub.mp hm
  refine ⟨named m (List.mem_of_getElem? hget), rfl, rfl, ?_⟩
  rw [hr, List.getElem?_append_right hle, List.getElem?_map, hget]
  rfl

theorem map_uid_methodInfos (name : String) (first : Nat) (ms : List Member) :
    (methodInfos name first ms).map (·.uid) = List.range' first ms.length := by
  rw [methodInfos, List.map_map]
  exact List.zipIdx_map_snd first ms

/-! ## Registering definition by definition -/

namespace Registered

variable {exclusions : List String} {defs : List (Dex × Dex.ClassDef)} {r : Registry}
  {origins : List Nat}

theorem exists_definition_of_mem (h : Registered exclusions defs r origins) {c : ClassInfo}
    (hc : c ∈ r.classes) :
    ¬ Excluded exclusions c.name ∧ ∃ d ∈ defs, FromDefinition r d c := by
  obtain ⟨p, -, horigin, d, hd, hfrom⟩ := exists_of_forall₂_right h.made hc
  exact ⟨horigin.not_excluded, d, List.mem_of_getElem? hd, hfrom⟩

/-- The first definition of a name that is not excluded becomes the class of that name. -/
theorem exists_class_of_isOrigin (h : Registered exclusions defs r origins) {p : Nat}
    {name : String} (horigin : IsOrigin exclusions defs p name) :
    ∃ c ∈ r.classes, c.name = name ∧ ∃ d, defs[p]? = some d ∧ FromDefinition r d c := by
  obtain ⟨c, hc, -, d, hd, hfrom⟩ :=
    exists_of_forall₂_left h.made ((h.mem_iff p).mpr ⟨name, horigin⟩)
  obtain ⟨d', hd', hdef⟩ := horigin.defines
  have same : d' = d := Option.some.inj (hd'.symm.trans hd)
  exact ⟨c, hc, hfrom.defines.unique (same ▸ hdef), d, hd, hfrom⟩

/-- A name is registered if it is defined and not excluded. -/
theorem mem_names_iff (h : Registered exclusions defs r origins) {name : String} :
    name ∈ r.classes.map (·.name) ↔ ¬ Excluded exclusions name ∧ ∃ d ∈ defs, Defines d name := by
  constructor
  · intro hname
    obtain ⟨c, hc, rfl⟩ := List.mem_map.mp hname
    obtain ⟨he, d, hd, hfrom⟩ := h.exists_definition_of_mem hc
    exact ⟨he, d, hd, hfrom.defines⟩
  · rintro ⟨he, hd⟩
    obtain ⟨p, horigin⟩ := exists_isOrigin he hd
    obtain ⟨c, hc, hname, -⟩ := h.exists_class_of_isOrigin horigin
    exact List.mem_map.mpr ⟨c, hc, hname⟩

theorem unseen (h : Registered exclusions defs r origins) {name : String}
    (he : ¬ Excluded exclusions name) (free : name ∉ r.classes.map (·.name)) :
    ∀ d ∈ defs, ¬ Defines d name :=
  fun d hd hdef => free (h.mem_names_iff.mpr ⟨he, d, hd, hdef⟩)

theorem lt_length (h : Registered exclusions defs r origins) {p : Nat} (hp : p ∈ origins) :
    p < defs.length := by
  obtain ⟨name, horigin⟩ := (h.mem_iff p).mp hp
  obtain ⟨d, hd, -⟩ := horigin.defines
  exact (List.getElem?_eq_some_iff.mp hd).1

/-- Classes keep their origins when there is one more definition and more entries. -/
theorem made_append (h : Registered exclusions defs r origins) {r' : Registry}
    (grown : r.entries <+: r'.entries) (d : Dex × Dex.ClassDef) :
    List.Forall₂ (fun p c => IsOrigin exclusions (defs ++ [d]) p c.name ∧
      ∃ d', (defs ++ [d])[p]? = some d' ∧ FromDefinition r' d' c) origins r.classes := by
  refine h.made.imp fun p c ⟨horigin, d', hd', hfrom⟩ => ?_
  exact ⟨isOrigin_append_singleton.mpr (.inl horigin), d',
    getElem?_of_prefix (List.prefix_append _ _) hd', hfrom.mono grown⟩

/-- A definition that changes nothing is the origin of no class. -/
theorem skip (h : Registered exclusions defs r origins) {d : Dex × Dex.ClassDef}
    (unused : ∀ name, Defines d name → Excluded exclusions name ∨ name ∈ r.classes.map (·.name)) :
    Registered exclusions (defs ++ [d]) r origins := by
  refine { h with mem_iff := fun p => ?_, made := h.made_append (List.prefix_refl _) d }
  rw [h.mem_iff p]
  refine exists_congr fun name => ?_
  rw [isOrigin_append_singleton]
  refine ⟨.inl, fun ho => ho.resolve_right ?_⟩
  rintro ⟨-, he, hd, hfirst⟩
  obtain ⟨-, d', hd', hdef⟩ := h.mem_names_iff.mp ((unused name hd).resolve_left he)
  exact hfirst d' hd' hdef

/-- A definition that becomes a class is an origin, behind all earlier ones. -/
theorem added (h : Registered exclusions defs r origins) {d : Dex × Dex.ClassDef} {name : String}
    {superclass : Option Descriptor} {interfaces : List Descriptor} (hdef : Defines d name)
    (he : ¬ Excluded exclusions name) (free : name ∉ r.classes.map (·.name))
    (hp : parents d.1 d.2 = .ok (superclass, interfaces)) :
    Registered exclusions (defs ++ [d])
      (r.add d.1 name superclass interfaces (members name d.1 d.2)) (origins ++ [defs.length]) where
  sorted := by
    refine List.pairwise_append.mpr ⟨h.sorted, List.pairwise_singleton _ _, fun p hp q hq => ?_⟩
    rw [List.mem_singleton.mp hq]
    exact h.lt_length hp
  mem_iff p := by
    simp only [List.mem_append, List.mem_singleton, isOrigin_append_singleton, exists_or,
      h.mem_iff p]
    refine or_congr_right ⟨?_, ?_⟩
    · rintro rfl
      exact ⟨name, rfl, he, hdef, h.unseen he free⟩
    · rintro ⟨-, hp, -⟩
      exact hp
  made := by
    have grown : r.entries <+:
        (r.add d.1 name superclass interfaces (members name d.1 d.2)).entries :=
      List.prefix_append ..
    have horigin := isOrigin_append_singleton.mpr (.inr ⟨rfl, he, hdef, h.unseen he free⟩)
    refine List.rel_append (h.made_append grown d) (.cons ⟨horigin, d, by simp, ?_⟩ .nil)
    obtain ⟨hs, hi⟩ := parents_eq_ok hp
    refine ⟨hdef.1, hs, hi, rfl, ?_⟩
    -- the next number is the length of the entries, where those of the class begin
    rw [← map_encoded_members name, ← h.entries_length]
    exact fromEncoded_methodInfos (fun m hm => memberName_of_mem_members hm) rfl
  names_nodup := by
    simp only [add, List.map_append, List.map_cons, List.map_nil]
    rw [← List.concat_eq_append]
    exact h.names_nodup.concat free
  uids := by
    simp only [add, List.flatMap_append, List.map_append, h.uids, List.flatMap_singleton,
      map_uid_methodInfos, List.range_add, List.range'_eq_map_range]
  entries_length := by simp [add, h.entries_length]
  classCount_eq := by simp [add, h.classCount_eq]

end Registered

/-- Registering one more definition keeps the relation. -/
theorem Registered.register {exclusions : List String} {defs : List (Dex × Dex.ClassDef)}
    {r : Registry} {origins : List Nat} (h : Registered exclusions defs r origins)
    (d : Dex × Dex.ClassDef) :
    ∃ origins', Registered exclusions (defs ++ [d]) (register exclusions r d).value origins' := by
  rcases register_cases exclusions r d with
    ⟨hr, unused⟩ | ⟨name, superclass, interfaces, hdef, he, free, hp, hr⟩
  · exact ⟨origins, hr.symm ▸ h.skip unused⟩
  · exact ⟨_, hr.symm ▸ h.added hdef he free hp⟩

theorem registered_empty (exclusions : List String) : Registered exclusions [] empty [] where
  sorted := .nil
  mem_iff p := by
    refine ⟨fun hp => by simp at hp, ?_⟩
    rintro ⟨name, -, ⟨d, hd, -⟩, -⟩
    simp at hd
  made := .nil
  names_nodup := .nil
  uids := rfl
  entries_length := rfl
  classCount_eq := rfl

theorem exists_registered (dexs : List Dex) (exclusions : List String) :
    ∃ origins, Registered exclusions (definitions dexs) (ofDexs dexs exclusions).value origins := by
  have start : ∃ origins, Registered exclusions [] empty origins :=
    ⟨[], registered_empty exclusions⟩
  have step : ∀ r defs, ∀ d ∈ definitions dexs, (∃ origins, Registered exclusions defs r origins) →
      ∃ origins, Registered exclusions (defs ++ [d]) (register exclusions r d).value origins :=
    fun r defs d _ ⟨_, h⟩ => h.register d
  have run := foldl_outputs (P := fun r defs => ∃ origins, Registered exclusions defs r origins)
    start step
  rw [ofDexs, Logged.value_foldlM]
  simpa using run

theorem classes_prefix_register (exclusions : List String) (r : Registry)
    (d : Dex × Dex.ClassDef) : r.classes <+: (register exclusions r d).value.classes := by
  rcases register_cases exclusions r d with ⟨hr, -⟩ | ⟨name, superclass, interfaces, -, -, -, -, hr⟩
  · exact hr.symm ▸ List.prefix_refl _
  · rw [hr]
    exact List.prefix_append ..

theorem definitions_append (dexs more : List Dex) :
    definitions (dexs ++ more) = definitions dexs ++ definitions more := List.flatMap_append

/-- The classes of some files come first when more files follow. -/
theorem classes_prefix_ofDexs (dexs more : List Dex) (exclusions : List String) :
    (ofDexs dexs exclusions).value.classes <+:
      (ofDexs (dexs ++ more) exclusions).value.classes := by
  rw [ofDexs, ofDexs, definitions_append, Logged.value_foldlM, Logged.value_foldlM,
    List.foldl_append]
  generalize (definitions dexs).foldl _ empty = r
  induction definitions more generalizing r with
  | nil => exact List.prefix_refl _
  | cons d rest ih => exact (classes_prefix_register exclusions r d).trans (ih _)

/-! ## Bodies -/

theorem body_eq_of_fromEncoded {r : Registry} {dex : Dex} {className : String}
    {encoded : Dex.EncodedMethod} {m : MethodInfo} (h : FromEncoded r dex className encoded m) :
    r.toProgram.body m = MethodEntry.body ⟨dex, encoded⟩ := by
  simp only [toProgram, body, h.entry]

/-- **The registry**: names are unique and not excluded; a name is registered if some definition
of it can be resolved, from the first such definition and in the order of those; methods are
numbered in order, and the body of a method is that of the encoded method it is made from; more
files leave the classes of earlier ones in place. -/
theorem ofDexs_registers_first_definitions (dexs : List Dex) (exclusions : List String) :
    let defs := definitions dexs
    let r := (ofDexs dexs exclusions).value
    (r.classes.map (·.name)).Nodup ∧
      (∀ c ∈ r.classes, ¬ Excluded exclusions c.name) ∧
      (∀ name, ¬ Excluded exclusions name →
        (name ∈ r.classes.map (·.name) ↔ ∃ d ∈ defs, Defines d name)) ∧
      (∃ origins : List Nat, origins.Pairwise (· < ·) ∧
        (∀ p, p ∈ origins ↔ ∃ name, IsOrigin exclusions defs p name) ∧
        List.Forall₂ (fun p c => IsOrigin exclusions defs p c.name ∧
          ∃ d, defs[p]? = some d ∧ FromDefinition r d c) origins r.classes) ∧
      (r.classes.flatMap (·.methods)).map (·.uid) = List.range r.methodCount ∧
      r.classCount = r.classes.length ∧
      (∀ c ∈ r.classes, ∀ m ∈ c.methods, ∃ d ∈ defs, ∃ encoded ∈ d.2.methods,
        FromDefinition r d c ∧ FromEncoded r d.1 c.name encoded m ∧
          r.toProgram.body m = MethodEntry.body ⟨d.1, encoded⟩ ∧
          ∀ uid, (r.toProgram.body m).value ≠ .error (.methodNotFound uid)) ∧
      ∀ more, r.classes <+: (ofDexs (dexs ++ more) exclusions).value.classes := by
  intro defs r
  obtain ⟨origins, h⟩ := exists_registered dexs exclusions
  refine ⟨h.names_nodup, fun c hc => ?_, fun name he => ?_, ⟨origins, h.sorted, h.mem_iff, h.made⟩,
    h.uids, h.classCount_eq, fun c hc m hm => ?_, fun more => classes_prefix_ofDexs ..⟩
  · exact (h.mem_names_iff.mp (List.mem_map_of_mem hc)).1
  · rw [h.mem_names_iff, and_iff_right he]
  · obtain ⟨-, d, hd, hfrom⟩ := h.exists_definition_of_mem hc
    obtain ⟨encoded, hmem, hm⟩ := exists_of_forall₂_right hfrom.methods hm
    have hbody := body_eq_of_fromEncoded hm
    exact ⟨d, hd, encoded, List.mem_of_mem_filter hmem, hfrom, hm, hbody,
      fun uid => hbody ▸ MethodEntry.value_body_ne_methodNotFound _ uid⟩

end PermissionAudit.Registry
