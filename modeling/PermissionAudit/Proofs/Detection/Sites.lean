import Mathlib.Data.List.Basic
import PermissionAudit.Detection.Run
import PermissionAudit.Proofs.Usage.Report
import PermissionAudit.Sequence.Fold

/-!
What a run records. The sites of a program are those of its selected classes and
methods in order, instruction by instruction; a run records them one after
another, whatever becomes of the flow graphs. Each step of the run is shown to
record the sites of what it scans and nothing else.
-/

namespace PermissionAudit.Detection

/-- Call sites of a body, in order of its instructions. -/
def bodySites (index : PermissionIndex) (m : MethodInfo) (b : Body) : List CallSite :=
  b.instrs.filterMap fun instr => instr.site? m index

/-- Call sites of a method; without a body it has none. -/
def methodSites (program : Program) (index : PermissionIndex) (m : MethodInfo) : List CallSite :=
  match (program.body m).value with
  | .error _ => []
  | .ok b => bodySites index m b

/-- The methods of a class that a run scans. -/
def selectedMethods (selection : Selection) (c : ClassInfo) : List MethodInfo :=
  if c.phantom then []
  else if selection.selectsClass c.name then
    c.methods.filter fun m => selection.selectsMethod m.name
  else []

/-- Call sites of all classes, in order of classes and methods. -/
def sites (program : Program) (index : PermissionIndex) (selection : Selection)
    (classes : List ClassInfo) : List CallSite :=
  (classes.flatMap (selectedMethods selection)).flatMap (methodSites program index)

theorem mem_selectedMethods {selection : Selection} {c : ClassInfo} {m : MethodInfo} :
    m ∈ selectedMethods selection c ↔
      c.phantom = false ∧ selection.selectsClass c.name ∧ m ∈ c.methods ∧
        selection.selectsMethod m.name := by
  rw [selectedMethods]
  cases c.phantom with
  | true => simp
  | false =>
    by_cases hc : selection.selectsClass c.name
    · simp [hc]
    · simp [hc]

theorem selectedMethods_sublist (selection : Selection) (c : ClassInfo) :
    (selectedMethods selection c).Sublist c.methods := by
  rw [selectedMethods]
  split
  · exact List.nil_sublist _
  · split
    · exact List.filter_sublist
    · exact List.nil_sublist _

theorem mem_methodSites {program : Program} {index : PermissionIndex} {m : MethodInfo}
    {site : CallSite} :
    site ∈ methodSites program index m ↔
      ∃ b, (program.body m).value = .ok b ∧ ∃ instr ∈ b.instrs,
        instr.site? m index = some site := by
  rw [methodSites]
  cases (program.body m).value with
  | error e => simp
  | ok b => simp [bodySites]

theorem site?_eq_some_iff {instr : BodyInstr} {m : MethodInfo} {index : PermissionIndex}
    {site : CallSite} :
    instr.site? m index = some site ↔
      ∃ t, instr.target = some (.ok t) ∧ index.isSensitive t.api ∧
        site = CallSite.ofTarget m instr.offset t := by
  rw [BodyInstr.site?]
  match instr.target with
  | none => simp
  | some (.error e) => simp
  | some (.ok t) =>
    simp only [Option.ite_none_right_eq_some, Option.some.injEq, Except.ok.injEq]
    constructor
    · rintro ⟨h, rfl⟩
      exact ⟨t, rfl, h, rfl⟩
    · rintro ⟨_, rfl, h, rfl⟩
      exact ⟨h, rfl⟩

/-! ## One step at a time -/

section

variable {σ : Type} (program : Program) (config : Config σ)

theorem ledger_add (index : PermissionIndex) (f : Findings) (site : CallSite) :
    (f.add index site).value.ledger = (f.ledger.record site).2 := by
  by_cases known : site.api ∈ f.apis <;> by_cases seen : site.place ∈ f.ledger.places <;>
    simp [Findings.add, UsageLedger.recordLogged, UsageLedger.record, known, seen]

theorem ledger_scanInstr (index : PermissionIndex) (m : MethodInfo) (f : Findings)
    (instr : BodyInstr) :
    (f.scanInstr index m instr).value.ledger =
      f.ledger.recordAll (instr.site? m index).toList := by
  simp only [Findings.scanInstr, BodyInstr.classify, Logged.value_bind]
  cases instr.site? m index with
  | none => rfl
  | some site => exact ledger_add index f site

/-- A sink changes neither what was found nor what will be. -/
theorem findings_writeGraph (sink? : Option (GraphSink σ)) (c : ClassInfo) (m : MethodInfo)
    (graph : FlowGraph) (p : Progress σ) :
    (writeGraph sink? c m graph p).value.findings = p.findings := by
  cases sink? with
  | none => rfl
  | some sink =>
    simp only [writeGraph, Logged.value_bind]
    split <;> rfl

/-- Steps that each record some sites record them all, in order. -/
theorem ledger_foldlM {α β : Type} (ledger : β → UsageLedger) {step : β → α → Logged β}
    {recorded : α → List CallSite}
    (h : ∀ b x, ledger (step b x).value = (ledger b).recordAll (recorded x)) (xs : List α) (b : β) :
    ledger (xs.foldlM step b).value = (ledger b).recordAll (xs.flatMap recorded) := by
  have start : ledger b = (ledger b).recordAll [] := rfl
  rw [Logged.value_foldlM]
  refine foldl_outputs (P := fun b' done => ledger b' = (ledger b).recordAll done) start ?_
  intro b' done x _ hb
  rw [h, hb, UsageLedger.recordAll_append]

theorem ledger_scanBody (c : ClassInfo) (m : MethodInfo) (b : Body) (p : Progress σ) :
    (scanBody config c m b p).value.findings.ledger =
      p.findings.ledger.recordAll (bodySites config.index m b) := by
  rw [bodySites, List.filterMap_eq_flatMap_toList]
  simp only [scanBody, Logged.value_bind, Logged.value_pure]
  rw [ledger_foldlM Findings.ledger (ledger_scanInstr config.index m), findings_writeGraph]

theorem ledger_scanMethod (c : ClassInfo) (p : Progress σ) (m : MethodInfo) :
    (scanMethod program config c p m).value.findings.ledger =
      p.findings.ledger.recordAll (methodSites program config.index m) := by
  simp only [scanMethod, methodSites, Logged.value_bind]
  cases (program.body m).value with
  | error e => rfl
  | ok b => exact ledger_scanBody config c m b _

theorem ledger_scanClass (p : Progress σ) (c : ClassInfo) :
    (scanClass program config p c).value.findings.ledger =
      p.findings.ledger.recordAll
        ((selectedMethods config.selection c).flatMap (methodSites program config.index)) := by
  rw [scanClass, selectedMethods]
  split
  · rfl
  · split
    · exact ledger_foldlM (fun p : Progress σ => p.findings.ledger)
        (ledger_scanMethod program config c) _ _
    · rfl

end

/-! ## The whole run -/

/-- **A run**: it succeeds when the classes can be listed, and its report groups the sites of
the program, the first of each place. -/
theorem run_usage {σ : Type} {program : Program} {classes : List ClassInfo}
    (hc : program.classes = .ok classes) (config : Config σ) (sink : σ) :
    ∃ outcome last, (run program config sink).value = (.ok outcome, last) ∧
      outcome.usage = .ofSites
        (distinctBy CallSite.place (sites program config.index config.selection classes)) := by
  have recorded := ledger_foldlM (fun p : Progress σ => p.findings.ledger)
    (ledger_scanClass program config) classes ⟨{}, 0, sink⟩
  rw [← List.flatMap_assoc, UsageLedger.recordAll_empty] at recorded
  simp only [run, hc, Logged.value_bind, Logged.value_pure]
  exact ⟨_, _, rfl, congrArg UsageLedger.report recorded⟩

end PermissionAudit.Detection
