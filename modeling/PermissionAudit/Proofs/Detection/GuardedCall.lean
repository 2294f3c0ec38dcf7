import PermissionAudit.Proofs.Detection.Sites
import PermissionAudit.Proofs.Registry.Origin

/-!
Detection over dex files is exact. A guarded call is said in terms of the files:
an instruction of the code of a registered method that invokes a method whose
name the index lists. A run reports one site for each of them, in the order of
classes, methods and addresses.
-/

namespace PermissionAudit

/-! ## Guarded calls of a registry -/

/-- Where a guarded call stands, and the site it is reported as. -/
structure GuardedCall where
  declaring : ClassInfo
  method : MethodInfo
  instr : Located
  site : CallSite

namespace GuardedCall

/-- The call stands in the code of a selected method of a selected class that is not phantom,
and the index lists the method it invokes. -/
structure Occurs (r : Registry) (index : PermissionIndex) (selection : Selection)
    (g : GuardedCall) : Prop where
  declaring_mem : g.declaring ∈ r.classes
  not_phantom : g.declaring.phantom = false
  class_selected : selection.selectsClass g.declaring.name
  method_mem : g.method ∈ g.declaring.methods
  method_selected : selection.selectsMethod g.method.name
  invokes : ∃ dex encoded code className name,
    Registry.FromEncoded r dex g.declaring.name encoded g.method ∧
    MethodEntry.HasCode ⟨dex, encoded⟩ code ∧ g.instr ∈ code.instrs ∧
    g.instr.instr.isPayload = false ∧ g.instr.Invokes dex className name ∧
    (∃ grant ∈ index.grants, grant.api = className ++ "." ++ name) ∧
    g.site = ⟨name, className ++ "." ++ name, g.declaring.name ++ "." ++ g.method.name ++ "()",
      ⟨g.method.uid, g.instr.addr⟩⟩

/-- The order of methods, then that of addresses. -/
def Before (g h : GuardedCall) : Prop :=
  g.method.uid < h.method.uid ∨
    g.declaring = h.declaring ∧ g.method = h.method ∧ g.instr.addr < h.instr.addr

end GuardedCall

namespace Detection

/-- Guarded calls in the instructions of an entry. -/
def entryCalls (index : PermissionIndex) (c : ClassInfo) (m : MethodInfo) (entry : MethodEntry) :
    List GuardedCall :=
  entry.instrs.filterMap fun l =>
    ((Registry.bodyInstr entry.dex l).site? m index).map fun site => ⟨c, m, l, site⟩

/-- Guarded calls of a method, in order of its instructions. -/
def methodCalls (r : Registry) (index : PermissionIndex) (c : ClassInfo) (m : MethodInfo) :
    List GuardedCall :=
  r.entries[m.uid]?.toList.flatMap (entryCalls index c m)

/-- Guarded calls of a registry, in order of classes and methods. -/
def guardedCalls (r : Registry) (index : PermissionIndex) (selection : Selection) :
    List GuardedCall :=
  r.classes.flatMap fun c => (selectedMethods selection c).flatMap (methodCalls r index c)

theorem map_site_entryCalls (index : PermissionIndex) (c : ClassInfo) (m : MethodInfo)
    (entry : MethodEntry) :
    (entryCalls index c m entry).map (·.site) =
      entry.instrs.filterMap fun l => (Registry.bodyInstr entry.dex l).site? m index := by
  simp only [entryCalls, List.map_filterMap, Option.map_map, Function.comp_def, Option.map_id_fun',
    id_eq]

theorem map_site_methodCalls (r : Registry) (index : PermissionIndex) (c : ClassInfo)
    (m : MethodInfo) :
    (methodCalls r index c m).map (·.site) = methodSites r.toProgram index m := by
  have hbody : r.toProgram.body m = r.body m.uid := rfl
  rw [methodCalls, methodSites, hbody, Registry.body]
  cases r.entries[m.uid]? with
  | none => rfl
  | some entry =>
    simp only [Option.toList_some, List.flatMap_singleton, map_site_entryCalls]
    rcases entry.body_cases with ⟨code, b, -, -, hb, hi⟩ | ⟨-, hi, hb | ⟨e, hb⟩⟩
    · rw [hb]
      simp only [bodySites, hi, List.filterMap_map, Function.comp_def]
    · rw [hb, hi]
      rfl
    · rw [hb, hi]
      rfl

theorem map_site_guardedCalls (r : Registry) (index : PermissionIndex) (selection : Selection) :
    (guardedCalls r index selection).map (·.site) =
      sites r.toProgram index selection r.classes := by
  simp only [guardedCalls, sites, List.map_flatMap, map_site_methodCalls, List.flatMap_assoc]

/-- The site of an instruction is that of the method it invokes. -/
theorem site?_bodyInstr_eq_some_iff {dex : Dex} {l : Located} {m : MethodInfo}
    {index : PermissionIndex} {site : CallSite} :
    (Registry.bodyInstr dex l).site? m index = some site ↔
      ∃ className name, l.Invokes dex className name ∧
        (∃ grant ∈ index.grants, grant.api = className ++ "." ++ name) ∧
        site = ⟨name, className ++ "." ++ name, m.callerId, ⟨m.uid, l.addr⟩⟩ := by
  rw [site?_eq_some_iff]
  constructor
  · rintro ⟨⟨className, name, dispatch⟩, ht, hs, rfl⟩
    exact ⟨className, name, Located.invokes_iff.mpr ⟨dispatch, ht⟩,
      PermissionIndex.isSensitive_iff.mp hs, rfl⟩
  · rintro ⟨className, name, hi, hg, rfl⟩
    obtain ⟨dispatch, ht⟩ := Located.invokes_iff.mp hi
    exact ⟨_, ht, PermissionIndex.isSensitive_iff.mpr hg, rfl⟩

theorem mem_methodCalls_iff {r : Registry} {index : PermissionIndex} {c : ClassInfo}
    {m : MethodInfo} {g : GuardedCall} :
    g ∈ methodCalls r index c m ↔ g.declaring = c ∧ g.method = m ∧
      ∃ entry, r.entries[m.uid]? = some entry ∧ g.instr ∈ entry.instrs ∧
        (Registry.bodyInstr entry.dex g.instr).site? m index = some g.site := by
  simp only [methodCalls, entryCalls, List.mem_flatMap, Option.mem_toList,
    List.mem_filterMap, Option.map_eq_some_iff]
  constructor
  · rintro ⟨entry, he, l, hl, site, hs, rfl⟩
    exact ⟨rfl, rfl, entry, he, hl, hs⟩
  · rintro ⟨rfl, rfl, entry, he, hl, hs⟩
    exact ⟨entry, he, g.instr, hl, g.site, hs, rfl⟩

theorem callerId_of_fromEncoded {r : Registry} {dex : Dex} {className : String}
    {encoded : Dex.EncodedMethod} {m : MethodInfo}
    (h : Registry.FromEncoded r dex className encoded m) :
    m.callerId = className ++ "." ++ m.name ++ "()" := by
  rw [MethodInfo.callerId, h.className_eq]
  rfl

/-- **Enumeration**: the list holds the guarded calls and nothing else. -/
theorem mem_guardedCalls_iff {r : Registry} {index : PermissionIndex} {selection : Selection}
    (made : ∀ c ∈ r.classes, ∀ m ∈ c.methods, ∃ dex encoded,
      Registry.FromEncoded r dex c.name encoded m) {g : GuardedCall} :
    g ∈ guardedCalls r index selection ↔ g.Occurs r index selection := by
  simp only [guardedCalls, List.mem_flatMap, mem_selectedMethods, mem_methodCalls_iff,
    site?_bodyInstr_eq_some_iff, MethodEntry.mem_instrs_iff]
  constructor
  · rintro ⟨_, hc, _, ⟨hp, hsc, hm, hsm⟩, rfl, rfl, entry, he, ⟨code, hcode, hl, hpay⟩, className,
      name, hi, hg, hs⟩
    -- the entry behind the number is the encoded method that the method is made from
    obtain ⟨dex, encoded, hfrom⟩ := made _ hc _ hm
    obtain rfl : entry = ⟨dex, encoded⟩ := Option.some.inj (he.symm.trans hfrom.entry)
    rw [callerId_of_fromEncoded hfrom] at hs
    exact ⟨hc, hp, hsc, hm, hsm, dex, encoded, code, className, name, hfrom, hcode, hl, hpay, hi,
      hg, hs⟩
  · rintro ⟨hc, hp, hsc, hm, hsm, dex, encoded, code, className, name, hfrom, hcode, hl, hpay, hi,
      hg, hs⟩
    rw [← callerId_of_fromEncoded hfrom] at hs
    exact ⟨_, hc, _, ⟨hp, hsc, hm, hsm⟩, rfl, rfl, ⟨dex, encoded⟩, hfrom.entry,
      ⟨code, hcode, hl, hpay⟩, className, name, hi, hg, hs⟩

/-! ## Order -/

theorem pairwise_methodCalls (r : Registry) (index : PermissionIndex) (c : ClassInfo)
    (m : MethodInfo) : (methodCalls r index c m).Pairwise GuardedCall.Before := by
  rw [methodCalls]
  cases r.entries[m.uid]? with
  | none => exact .nil
  | some entry =>
    simp only [Option.toList_some, List.flatMap_singleton, entryCalls]
    refine entry.addresses_instrs.filterMap _ fun k l hlt g hg h hh => ?_
    obtain ⟨_, -, rfl⟩ := Option.map_eq_some_iff.mp hg
    obtain ⟨_, -, rfl⟩ := Option.map_eq_some_iff.mp hh
    exact .inr ⟨rfl, rfl, hlt⟩

/-- Calls of methods in order of their numbers are in order. -/
theorem before_of_uid_lt {r : Registry} {index : PermissionIndex} {c d : ClassInfo}
    {m n : MethodInfo} (h : m.uid < n.uid) :
    ∀ g ∈ methodCalls r index c m, ∀ g' ∈ methodCalls r index d n, g.Before g' := by
  intro g hg g' hg'
  obtain ⟨-, rfl, -⟩ := mem_methodCalls_iff.mp hg
  obtain ⟨-, rfl, -⟩ := mem_methodCalls_iff.mp hg'
  exact .inl h

/-- Numbers that are given out in order keep the calls in order. -/
theorem pairwise_guardedCalls {r : Registry}
    (ordered : (r.classes.flatMap (·.methods)).Pairwise (·.uid < ·.uid)) (index : PermissionIndex)
    (selection : Selection) : (guardedCalls r index selection).Pairwise GuardedCall.Before := by
  obtain ⟨within, across⟩ := List.pairwise_flatMap.mp ordered
  refine List.pairwise_flatMap.mpr ⟨fun c hc => ?_, across.imp fun {c d} hlt g hg h hh => ?_⟩
  · refine List.pairwise_flatMap.mpr ⟨fun m _ => pairwise_methodCalls r index c m, ?_⟩
    exact ((within c hc).sublist (selectedMethods_sublist selection c)).imp before_of_uid_lt
  · obtain ⟨m, hm, hg⟩ := List.mem_flatMap.mp hg
    obtain ⟨n, hn, hh⟩ := List.mem_flatMap.mp hh
    have lt := hlt m ((selectedMethods_sublist selection c).subset hm) n
      ((selectedMethods_sublist selection d).subset hn)
    exact before_of_uid_lt lt g hg h hh

theorem instr_of_mem_guardedCalls {r : Registry} {index : PermissionIndex} {selection : Selection}
    {g : GuardedCall} (h : g ∈ guardedCalls r index selection) :
    g.site.instr = ⟨g.method.uid, g.instr.addr⟩ := by
  simp only [guardedCalls, List.mem_flatMap, mem_methodCalls_iff] at h
  obtain ⟨_, -, _, -, -, rfl, entry, -, -, hs⟩ := h
  obtain ⟨className, name, -, -, hs⟩ := site?_bodyInstr_eq_some_iff.mp hs
  rw [hs]

/-- No two guarded calls have one place, so none is taken for a repetition. -/
theorem nodup_places_guardedCalls {r : Registry}
    (ordered : (r.classes.flatMap (·.methods)).Pairwise (·.uid < ·.uid)) (index : PermissionIndex)
    (selection : Selection) :
    (((guardedCalls r index selection).map (·.site)).map CallSite.place).Nodup := by
  rw [List.map_map]
  refine List.pairwise_map.mpr ?_
  refine (pairwise_guardedCalls ordered index selection).imp_of_mem fun {g h} hg hh before heq => ?_
  have same : g.site.instr = h.site.instr := congrArg Prod.snd heq
  rw [instr_of_mem_guardedCalls hg, instr_of_mem_guardedCalls hh] at same
  obtain ⟨huid, haddr⟩ := InstrRef.mk.inj same
  rcases before with hlt | ⟨-, -, hlt⟩
  · exact Nat.ne_of_lt hlt huid
  · exact Nat.ne_of_lt hlt haddr

/-! ## The run over dex files -/

/-- **Exact detection.** A run over the registry of some files succeeds, and its report groups the
sites of the guarded calls: each call has one site, in the entry of its name; entries are in order
of first occurrence, and sites in the order of classes, methods and addresses. -/
theorem run_ofDexs_reports_guarded_calls {σ : Type} (dexs : List Dex) (exclusions : List String)
    (config : Config σ) (sink : σ) :
    let r := (Registry.ofDexs dexs exclusions).value
    ∃ outcome last, ∃ found : List GuardedCall,
      (run r.toProgram config sink).value = (.ok outcome, last) ∧
      (∀ g, g ∈ found ↔ g.Occurs r config.index config.selection) ∧
      found.Pairwise GuardedCall.Before ∧
      (r.classes.flatMap (·.methods)).map (·.uid) = List.range r.methodCount ∧
      outcome.usage.entries.map (·.apiName) = distinct (found.map (·.site.apiName)) ∧
      (∀ u ∈ outcome.usage.entries,
        u.calls = (found.map (·.site)).filter (·.apiName = u.apiName)) ∧
      (outcome.usage.entries.flatMap (·.calls)).Perm (found.map (·.site)) := by
  intro r
  obtain ⟨origins, registered⟩ := Registry.exists_registered dexs exclusions
  have listed : r.toProgram.classes = .ok r.classes := rfl
  obtain ⟨outcome, last, hrun, husage⟩ := run_usage listed config sink
  have ordered : (r.classes.flatMap (·.methods)).Pairwise (·.uid < ·.uid) := by
    rw [← List.pairwise_map, registered.uids]
    exact List.pairwise_lt_range
  -- places are unique, so leaving out repetitions changes nothing
  rw [← map_site_guardedCalls,
    distinctBy_of_nodup (nodup_places_guardedCalls ordered config.index config.selection)] at husage
  refine ⟨outcome, last, guardedCalls r config.index config.selection, hrun, fun g => ?_,
    pairwise_guardedCalls ordered config.index config.selection, registered.uids, ?_, ?_, ?_⟩
  · refine mem_guardedCalls_iff fun c hc m hm => ?_
    obtain ⟨-, d, -, hfrom⟩ := registered.exists_definition_of_mem hc
    obtain ⟨encoded, -, hm⟩ := exists_of_forall₂_right hfrom.methods hm
    exact ⟨d.1, encoded, hm⟩
  · rw [husage, UsageReport.map_apiName_ofSites, List.map_map]
    rfl
  · rw [husage]
    exact fun u hu => UsageReport.calls_of_mem_ofSites hu
  · rw [husage]
    exact UsageReport.flatMap_calls_ofSites _

/-- A file with the class `A`, whose method `f` calls the method `f` of `B`. The strings come
first, then the code: an invocation and a return. -/
def callingDex : Dex where
  header := ⟨35, 0, [], 0, 0, 0, ⟨0, 0⟩, ⟨0, 0⟩, ⟨0, 0⟩, ⟨0, 0⟩, ⟨0, 0⟩, ⟨0, 0⟩⟩
  raw :=
    [3, 0x4C, 0x41, 0x3B, 0, 3, 0x4C, 0x42, 0x3B, 0, 1, 0x66, 0,
      0, 0, 0, 0, 0, 0, 0, 0, 0, 0, 0, 0, 4, 0, 0, 0,
      0x6E, 0, 1, 0, 0, 0, 0x0E, 0]
  strings := [0, 5, 10]
  types := [0, 1]
  protos := []
  fields := []
  methods := [⟨0, 0, 2⟩, ⟨1, 0, 2⟩]
  classes := [⟨0, 0, none, [], some ⟨[], [⟨0, 0, some 13⟩]⟩⟩]

/-- A run that looks for calls of `B.f`. -/
def callingRun : Config Unit := ⟨.ofRows ["B,f,app.permission.F"], .all, .label, none⟩

/-- The site of the call in the file. -/
def callingSite : CallSite := ⟨"f", "B.f", "A.f()", ⟨0, 0⟩⟩

/-- The call in the file is a guarded one, and its site is the one that is reported. -/
theorem callingDex_guarded_call :
    ∃ outcome last, ∃ g : GuardedCall,
      (run (Registry.ofDexs [callingDex] []).value.toProgram callingRun ()).value =
        (.ok outcome, last) ∧
      outcome.usage.entries = [⟨"f", [callingSite]⟩] ∧ g.site = callingSite ∧
      g.Occurs (Registry.ofDexs [callingDex] []).value callingRun.index callingRun.selection := by
  obtain ⟨outcome, last, found, hrun, hmem, -, -, -, -, perm⟩ :=
    run_ofDexs_reports_guarded_calls [callingDex] [] callingRun ()
  have reported : (run (Registry.ofDexs [callingDex] []).value.toProgram callingRun ()).value.1.map
      (·.usage.entries) = .ok [⟨"f", [callingSite]⟩] := rfl
  rw [hrun] at reported
  have entries : outcome.usage.entries = [⟨"f", [callingSite]⟩] := Except.ok.inj reported
  rw [entries] at perm
  obtain ⟨g, hg, hsite⟩ := List.mem_map.mp (perm.mem_iff.mp (List.mem_singleton_self callingSite))
  exact ⟨outcome, last, g, hrun, entries, hsite, (hmem g).mp hg⟩

end Detection

end PermissionAudit
