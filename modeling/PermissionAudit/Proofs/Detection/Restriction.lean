import PermissionAudit.Proofs.Detection.Sites
import PermissionAudit.Proofs.Usage.Acceptance

/-!
Filters only restrict. A run with a selection skips methods, and what it skips
can no longer have been recorded before something else. Since a method number
tells the method, no place belongs to a selected method and to an unselected one:
for each API name the run reports the sites of the run that selects everything
which are in selected methods, in the same order.
-/

namespace PermissionAudit

/-! ## Sequences -/

theorem filter_flatMap_of_forall {α β : Type} {f : α → List β} {p : β → Bool} {q : α → Bool}
    {xs : List α} (h : ∀ x ∈ xs, ∀ y ∈ f x, p y = q x) :
    (xs.flatMap f).filter p = (xs.filter q).flatMap f := by
  induction xs with
  | nil => rfl
  | cons x rest ih =>
    have later := ih fun y hy => h y (by simp [hy])
    have first := h x (by simp)
    rw [List.flatMap_cons, List.filter_append, later]
    by_cases hq : q x = true
    · have all : (f x).filter p = f x := by
        rw [List.filter_eq_self]
        intro y hy
        rw [first y hy, hq]
      rw [all, List.filter_cons_of_pos hq, List.flatMap_cons]
    · have none : (f x).filter p = [] := by
        rw [List.filter_eq_nil_iff]
        intro y hy
        rw [first y hy]
        exact hq
      rw [none, List.filter_cons_of_neg hq, List.nil_append]

/-- Whether an element is kept is told by its key, so that the first element of a key is kept
before or after repetitions are left out. -/
theorem distinctBy_filter {α β : Type} [DecidableEq β] {key : α → β} {p : α → Bool}
    {q : β → Bool} (h : ∀ a, p a = q (key a)) (xs : List α) :
    distinctBy key (xs.filter p) = (distinctBy key xs).filter p := by
  induction xs with
  | nil => rfl
  | cons a rest ih =>
    rw [distinctBy]
    by_cases ha : p a = true
    · rw [List.filter_cons_of_pos ha, List.filter_cons_of_pos ha, distinctBy, ih,
        List.filter_filter, List.filter_filter]
      refine congrArg _ (List.filter_congr fun b _ => ?_)
      exact Bool.and_comm _ _
    · rw [List.filter_cons_of_neg ha, List.filter_cons_of_neg ha, ih, List.filter_filter]
      refine List.filter_congr fun b _ => ?_
      -- what is kept has another key than `a`, which is not kept
      cases hb : p b with
      | false => simp
      | true =>
        have hne : key b ≠ key a := by
          intro heq
          rw [h b, heq, ← h a] at hb
          exact ha hb
        simp [hne]

namespace Detection

/-! ## Which sites are kept -/

/-- The methods of all classes, each with its class, in order. -/
def declared (classes : List ClassInfo) : List (ClassInfo × MethodInfo) :=
  classes.flatMap fun c => c.methods.map fun m => (c, m)

/-- Whether a method and its class pass the filters. -/
def passesFilters (selection : Selection) (d : ClassInfo × MethodInfo) : Bool :=
  selection.selectsClass d.1.name && selection.selectsMethod d.2.name

/-- Whether a number is that of a method which passes the filters together with its class. -/
def selectsUid (selection : Selection) (classes : List ClassInfo) (uid : Nat) : Bool :=
  classes.any fun c => selection.selectsClass c.name &&
    c.methods.any fun m => m.uid = uid && selection.selectsMethod m.name

theorem mem_declared {classes : List ClassInfo} {d : ClassInfo × MethodInfo} :
    d ∈ declared classes ↔ d.1 ∈ classes ∧ d.2 ∈ d.1.methods := by
  simp only [declared, List.mem_flatMap, List.mem_map]
  constructor
  · rintro ⟨c, hc, m, hm, rfl⟩
    exact ⟨hc, hm⟩
  · rintro ⟨hc, hm⟩
    exact ⟨d.1, hc, d.2, hm, rfl⟩

theorem selectsUid_iff {selection : Selection} {classes : List ClassInfo} {uid : Nat} :
    selectsUid selection classes uid = true ↔
      ∃ d ∈ declared classes, d.2.uid = uid ∧ passesFilters selection d = true := by
  simp only [selectsUid, List.any_eq_true, Bool.and_eq_true, decide_eq_true_eq, mem_declared,
    passesFilters]
  constructor
  · rintro ⟨c, hc, hclass, m, hm, huid, hmethod⟩
    exact ⟨(c, m), ⟨hc, hm⟩, huid, hclass, hmethod⟩
  · rintro ⟨d, ⟨hc, hm⟩, huid, hclass, hmethod⟩
    exact ⟨d.1, hc, hclass, d.2, hm, huid, hmethod⟩

/-- Where numbers tell methods apart, a number is selected when its one method is. -/
theorem selectsUid_of_mem {classes : List ClassInfo}
    (distinct : ((declared classes).map (·.2.uid)).Nodup) (selection : Selection)
    {d : ClassInfo × MethodInfo} (hd : d ∈ declared classes) :
    selectsUid selection classes d.2.uid = passesFilters selection d := by
  rw [Bool.eq_iff_iff, selectsUid_iff]
  constructor
  · rintro ⟨other, hother, huid, hpass⟩
    have same : other = d := List.inj_on_of_nodup_map distinct hother hd huid
    rw [← same]
    exact hpass
  · intro hpass
    exact ⟨d, hd, rfl, hpass⟩

/-! ## Sites of a selection -/

/-- The methods that a run scans, each with its class, in order: the declared ones that pass,
phantom classes left out. -/
def scanned (selection : Selection) (classes : List ClassInfo) : List (ClassInfo × MethodInfo) :=
  (declared classes).filter fun d => !d.1.phantom && passesFilters selection d

theorem scanned_eq_flatMap (selection : Selection) (classes : List ClassInfo) :
    scanned selection classes =
      classes.flatMap fun c => (selectedMethods selection c).map fun m => (c, m) := by
  induction classes with
  | nil => rfl
  | cons c rest ih =>
    have first : declared (c :: rest) = c.methods.map (fun m => (c, m)) ++ declared rest := rfl
    rw [List.flatMap_cons, ← ih, scanned, first, List.filter_append, List.filter_map]
    refine congrArg (· ++ _) (congrArg (List.map _) ?_)
    have passes (m : MethodInfo) :
        ((fun d => !d.1.phantom && passesFilters selection d) ∘ fun m => (c, m)) m =
          (!c.phantom && (selection.selectsClass c.name && selection.selectsMethod m.name)) := rfl
    rw [List.filter_congr fun m _ => passes m, selectedMethods]
    cases c.phantom with
    | true => simp
    | false =>
      cases selection.selectsClass c.name with
      | true => simp
      | false => simp

theorem flatMap_selectedMethods (selection : Selection) (classes : List ClassInfo) :
    classes.flatMap (selectedMethods selection) = (scanned selection classes).map (·.2) := by
  rw [scanned_eq_flatMap, List.map_flatMap]
  simp [Function.comp_def]

theorem instr_of_mem_methodSites {program : Program} {index : PermissionIndex} {m : MethodInfo}
    {site : CallSite} (h : site ∈ methodSites program index m) : site.instr.method = m.uid := by
  obtain ⟨b, -, instr, -, hsite⟩ := mem_methodSites.mp h
  obtain ⟨t, -, -, rfl⟩ := site?_eq_some_iff.mp hsite
  rfl

theorem sites_eq_filter {classes : List ClassInfo}
    (distinct : ((declared classes).map (·.2.uid)).Nodup) (program : Program)
    (index : PermissionIndex) (selection : Selection) :
    sites program index selection classes =
      (sites program index .all classes).filter
        (fun site => selectsUid selection classes site.instr.method) := by
  have of_scanned (s : Selection) : sites program index s classes =
      (scanned s classes).flatMap fun d => methodSites program index d.2 := by
    rw [sites, flatMap_selectedMethods, List.flatMap_map]
  rw [of_scanned, of_scanned, filter_flatMap_of_forall (q := passesFilters selection), scanned,
    scanned, List.filter_filter]
  · refine congrArg (List.flatMap _) (List.filter_congr fun d _ => ?_)
    simp [passesFilters, Selection.all, Bool.and_comm]
  · intro d hd site hsite
    rw [instr_of_mem_methodSites hsite]
    exact selectsUid_of_mem distinct selection (List.mem_of_mem_filter hd)

/-- What is recorded of the selection is what is recorded of everything, filtered: the place of a
site tells the method, and the method tells whether the site is kept. -/
theorem distinctBy_place_sites {classes : List ClassInfo}
    (distinct : ((declared classes).map (·.2.uid)).Nodup) (program : Program)
    (index : PermissionIndex) (selection : Selection) :
    distinctBy CallSite.place (sites program index selection classes) =
      (distinctBy CallSite.place (sites program index .all classes)).filter
        (fun site => selectsUid selection classes site.instr.method) := by
  rw [sites_eq_filter distinct]
  apply distinctBy_filter (q := fun place => selectsUid selection classes place.2.method)
  intro site
  rfl

/-! ## Two runs -/

/-- **Filters only restrict.** In a program whose method numbers are distinct, the entry of a name
in a run with a selection lists the sites of its entry in a run without one that are in selected
methods, in the same order. There is no entry if there is no such site. -/
theorem run_filters_restrict {σ τ : Type} {program : Program} {classes : List ClassInfo}
    (hc : program.classes = .ok classes)
    (distinct : ((declared classes).map (·.2.uid)).Nodup) (index : PermissionIndex)
    (selection : Selection) (keying keying' : NodeKeying) (sink? : Option (GraphSink σ))
    (sink?' : Option (GraphSink τ)) (s : σ) (t : τ) :
    ∃ filtered whole last last',
      (run program ⟨index, selection, keying, sink?⟩ s).value = (.ok filtered, last) ∧
      (run program ⟨index, .all, keying', sink?'⟩ t).value = (.ok whole, last') ∧
      ∀ name,
        let kept := (whole.usage.callsOf name).filter fun site =>
          selectsUid selection classes site.instr.method
        filtered.usage.get? name = if kept = [] then none else some ⟨name, kept⟩ := by
  obtain ⟨filtered, last, hrun, husage⟩ :=
    run_usage hc (⟨index, selection, keying, sink?⟩ : Config σ) s
  obtain ⟨whole, last', hrun', husage'⟩ :=
    run_usage hc (⟨index, .all, keying', sink?'⟩ : Config τ) t
  refine ⟨filtered, whole, last, last', hrun, hrun', ?_⟩
  intro name kept
  have hkept : kept = (distinctBy CallSite.place (sites program index selection classes)).filter
      (·.apiName = name) := by
    show (whole.usage.callsOf name).filter _ = _
    rw [husage', UsageReport.callsOf_ofSites,
      distinctBy_place_sites distinct program index selection, List.filter_filter,
      List.filter_filter]
    refine List.filter_congr fun site _ => ?_
    exact Bool.and_comm _ _
  rw [husage, UsageReport.get?_ofSites, hkept]

/-- Two classes with a method each, and both methods make the same call. -/
def twoCallers : List ClassInfo :=
  [⟨"app.Main", none, [], false, [⟨0, "app.Main", "start", true⟩]⟩,
    ⟨"app.Other", none, [], false, [⟨1, "app.Other", "start", true⟩]⟩]

/-- The call is the only instruction of both. -/
def twoCallersProgram : Program where
  classes := .ok twoCallers
  body _ :=
    pure ((Body.make [⟨4, pure "invoke", some (.ok ⟨"dev.Camera", "take", .virtual⟩)⟩]
      [[]]).mapError .malformedBody)
  callGraph? := none

/-- An index of that call. -/
def cameraIndex : PermissionIndex := .ofRows ["dev/Camera,take,dev.permission.CAMERA"]

/-- The site in the method with a number. -/
def cameraSite (uid : Nat) (caller : String) : CallSite :=
  ⟨"take", "dev.Camera.take", caller, ⟨uid, 4⟩⟩

/-- With a filter for the second class the site in the first is gone. -/
theorem twoCallersProgram_restricted :
    ((declared twoCallers).map (·.2.uid)).Nodup ∧
    ∃ filtered whole last last',
      (run twoCallersProgram
        (⟨cameraIndex, ⟨(· = "app.Other"), fun _ => true⟩, .label, none⟩ : Config Unit) ()).value =
        (.ok filtered, last) ∧
      (run twoCallersProgram (⟨cameraIndex, .all, .label, none⟩ : Config Unit) ()).value =
        (.ok whole, last') ∧
      whole.usage.callsOf "take" =
        [cameraSite 0 "app.Main.start()", cameraSite 1 "app.Other.start()"] ∧
      filtered.usage.get? "take" = some ⟨"take", [cameraSite 1 "app.Other.start()"]⟩ := by
  have distinct : ((declared twoCallers).map (·.2.uid)).Nodup := by decide
  have hc : twoCallersProgram.classes = .ok twoCallers := rfl
  obtain ⟨filtered, whole, last, last', hrun, hrun', entries⟩ :=
    run_filters_restrict (σ := Unit) (τ := Unit) hc distinct cameraIndex
      ⟨(· = "app.Other"), fun _ => true⟩ .label .label none none () ()
  have hfound : (run twoCallersProgram
      (⟨cameraIndex, .all, .label, none⟩ : Config Unit) ()).value.1.map (·.usage.callsOf "take") =
        .ok [cameraSite 0 "app.Main.start()", cameraSite 1 "app.Other.start()"] := rfl
  rw [hrun'] at hfound
  have hcalls : whole.usage.callsOf "take" =
      [cameraSite 0 "app.Main.start()", cameraSite 1 "app.Other.start()"] :=
    Except.ok.inj hfound
  have entry := entries "take"
  rw [hcalls] at entry
  exact ⟨distinct, filtered, whole, last, last', hrun, hrun', hcalls, entry⟩

end Detection

end PermissionAudit
