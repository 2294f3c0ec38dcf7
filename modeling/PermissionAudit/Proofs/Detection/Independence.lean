import PermissionAudit.Proofs.Detection.Sites

/-!
Detection does not depend on enrichment or output. Two runs over one program, with
one index and one selection, may have different call graphs, different keyings and
different sinks, each sink with a state and failures of its own. Step by step both
hold the same findings; only failed writes are counted outside of these.
-/

namespace PermissionAudit.Detection

/-- Both runs failed with one error, or both succeeded with one report and with counts that agree
but for the failed writes. -/
inductive SameDetection : Except AnalysisError Outcome → Except AnalysisError Outcome → Prop where
  | failed (e : AnalysisError) : SameDetection (.error e) (.error e)
  | found {o o' : Outcome} (usage : o.usage = o'.usage)
      (stats : { o.stats with writeFailures := 0 } = { o'.stats with writeFailures := 0 }) :
      SameDetection (.ok o) (.ok o')

/-- The runs look at the same bodies, for the same calls in the same places. Nothing is said about
their call graphs, keyings and sinks. -/
structure SameTask {σ τ : Type} (program program' : Program) (config : Config σ)
    (config' : Config τ) : Prop where
  body : program.body = program'.body
  index : config.index = config'.index
  selection : config.selection = config'.selection

/-- States that are related stay related when both take the same steps. -/
theorem foldlM_related {α β γ : Type} {R : β → γ → Prop} {f : β → α → Logged β}
    {g : γ → α → Logged γ} (step : ∀ b c x, R b c → R (f b x).value (g c x).value)
    (xs : List α) {b : β} {c : γ} (start : R b c) :
    R (xs.foldlM f b).value (xs.foldlM g c).value := by
  induction xs generalizing b c with
  | nil => exact start
  | cons x rest ih =>
    rw [List.foldlM_cons, List.foldlM_cons]
    exact ih (step b c x start)

/-! ## One step at a time -/

section

variable {σ τ : Type} {program program' : Program} {config : Config σ} {config' : Config τ}
  {p : Progress σ} {q : Progress τ}

theorem findings_count (hpq : p.findings = q.findings) (f : Tally → Tally) :
    (p.count f).findings = (q.count f).findings := by
  unfold Progress.count
  rw [hpq]

theorem findings_scanBody (h : SameTask program program' config config')
    (hpq : p.findings = q.findings) (c : ClassInfo) (m : MethodInfo) (b : Body) :
    (scanBody config c m b p).value.findings = (scanBody config' c m b q).value.findings := by
  simp only [scanBody, Logged.value_bind, Logged.value_pure, findings_writeGraph]
  rw [h.index, hpq]

theorem findings_scanMethod (h : SameTask program program' config config')
    (hpq : p.findings = q.findings) (c : ClassInfo) (m : MethodInfo) :
    (scanMethod program config c p m).value.findings =
      (scanMethod program' config' c q m).value.findings := by
  simp only [scanMethod, Logged.value_bind]
  rw [h.body]
  cases (program'.body m).value with
  | error e => exact findings_count (findings_count hpq _) _
  | ok b => exact findings_scanBody h (findings_count (findings_count hpq _) _) c m b

theorem findings_scanClass (h : SameTask program program' config config')
    (hpq : p.findings = q.findings) (c : ClassInfo) :
    (scanClass program config p c).value.findings =
      (scanClass program' config' q c).value.findings := by
  unfold scanClass
  rw [h.selection]
  split
  · exact findings_count hpq _
  · split
    · apply foldlM_related (R := fun (p : Progress σ) (q : Progress τ) => p.findings = q.findings)
      · intro p q m hpq
        exact findings_scanMethod h hpq c m
      · exact findings_count hpq _
    · exact hpq

end

/-! ## Two runs -/

/-- What was found decides the outcome, but for the failed writes and the call graph. -/
theorem SameDetection.ofFindings {f f' : Findings} (h : f = f') (failures failures' : Nat)
    (callGraph callGraph' : Option CallGraph) :
    SameDetection (.ok (.ofFindings f failures callGraph))
      (.ok (.ofFindings f' failures' callGraph')) := by
  subst h
  exact .found rfl rfl

/-- **Independence.** Whatever call graphs there are, however nodes are keyed and whatever becomes
of the flow graphs, two runs that otherwise agree both fail, or both find the same. -/
theorem run_independent_of_enrichment {σ τ : Type} (program : Program) (index : PermissionIndex)
    (selection : Selection)
    (callGraph callGraph' : Option (Logged (Except AnalysisError CallGraph)))
    (keying keying' : NodeKeying) (sink? : Option (GraphSink σ)) (sink?' : Option (GraphSink τ))
    (s : σ) (t : τ) :
    SameDetection
      (run { program with callGraph? := callGraph } ⟨index, selection, keying, sink?⟩ s).value.1
      (run { program with callGraph? := callGraph' }
        ⟨index, selection, keying', sink?'⟩ t).value.1 := by
  simp only [run, Logged.value_bind]
  cases program.classes with
  | error e => exact .failed e
  | ok classes =>
    apply SameDetection.ofFindings
    apply foldlM_related (R := fun (p : Progress σ) (q : Progress τ) => p.findings = q.findings)
    · intro p q c hpq
      apply findings_scanClass _ hpq c
      exact ⟨rfl, rfl, rfl⟩
    · rfl

end PermissionAudit.Detection
