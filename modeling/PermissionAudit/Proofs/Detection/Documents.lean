import PermissionAudit.Proofs.Detection.Sites

/-!
What a run hands to its sink. The documents of a program are the flow graphs of
the methods that are scanned and have a body, in order. Each is handed over once,
whatever the sink made of those before it.
-/

namespace PermissionAudit.Detection

/-- The flow graph of a method as a named document; without a body there is none. -/
def methodDocuments (program : Program) (keying : NodeKeying) (c : ClassInfo) (m : MethodInfo) :
    List (String × String) :=
  match (program.body m).value with
  | .error _ => []
  | .ok b =>
    let name := FileName.flowGraph c.simpleName m.name
    [(name, (FlowGraph.build b keying).value.dot name)]

/-- Documents of all classes, in order of classes and methods. -/
def documents (program : Program) (keying : NodeKeying) (selection : Selection)
    (classes : List ClassInfo) : List (String × String) :=
  classes.flatMap fun c =>
    (selectedMethods selection c).flatMap (methodDocuments program keying c)

/-- The state of a sink after it was handed some documents, one after another. -/
def handOver {σ : Type} (sink? : Option (GraphSink σ)) (s : σ) (docs : List (String × String)) :
    σ :=
  match sink? with
  | none => s
  | some sink => docs.foldl (fun s doc => (sink.write doc.1 doc.2 s).value.2) s

@[simp] theorem handOver_nil {σ : Type} (sink? : Option (GraphSink σ)) (s : σ) :
    handOver sink? s [] = s := by
  cases sink? <;> rfl

theorem handOver_append {σ : Type} (sink? : Option (GraphSink σ)) (s : σ)
    (docs more : List (String × String)) :
    handOver sink? s (docs ++ more) = handOver sink? (handOver sink? s docs) more := by
  cases sink? with
  | none => rfl
  | some sink => exact List.foldl_append

/-! ## One step at a time -/

section

variable {σ : Type} (program : Program) (config : Config σ)

theorem sink_writeGraph (sink? : Option (GraphSink σ)) (c : ClassInfo) (m : MethodInfo)
    (graph : FlowGraph) (p : Progress σ) :
    (writeGraph sink? c m graph p).value.sink =
      let name := FileName.flowGraph c.simpleName m.name
      handOver sink? p.sink [(name, graph.dot name)] := by
  cases sink? with
  | none => rfl
  | some sink =>
    simp only [writeGraph, Logged.value_bind]
    split
    · simp [handOver]
    · simp [handOver]

/-- Steps that each hand over some documents hand them all over, in order. -/
theorem sink_foldlM (sink? : Option (GraphSink σ)) {α : Type}
    {step : Progress σ → α → Logged (Progress σ)} {handed : α → List (String × String)}
    (h : ∀ p x, (step p x).value.sink = handOver sink? p.sink (handed x)) (xs : List α)
    (p : Progress σ) :
    (xs.foldlM step p).value.sink = handOver sink? p.sink (xs.flatMap handed) := by
  have start : p.sink = handOver sink? p.sink [] := (handOver_nil sink? p.sink).symm
  rw [Logged.value_foldlM]
  refine foldl_outputs (P := fun (p' : Progress σ) done => p'.sink = handOver sink? p.sink done)
    start ?_
  intro p' done x _ hp
  rw [h, hp, handOver_append]

theorem sink_scanMethod (c : ClassInfo) (p : Progress σ) (m : MethodInfo) :
    (scanMethod program config c p m).value.sink =
      handOver config.sink? p.sink (methodDocuments program config.keying c m) := by
  simp only [scanMethod, methodDocuments, Logged.value_bind]
  cases (program.body m).value with
  | error e => exact (handOver_nil config.sink? p.sink).symm
  | ok b => exact sink_writeGraph config.sink? c m _ _

theorem sink_scanClass (p : Progress σ) (c : ClassInfo) :
    (scanClass program config p c).value.sink =
      handOver config.sink? p.sink ((selectedMethods config.selection c).flatMap
        (methodDocuments program config.keying c)) := by
  rw [scanClass, selectedMethods]
  split
  · exact (handOver_nil config.sink? p.sink).symm
  · split
    · exact sink_foldlM config.sink? (sink_scanMethod program config c) _ _
    · exact (handOver_nil config.sink? p.sink).symm

end

/-! ## The whole run -/

/-- **What a run writes**: all documents of the program are handed to the sink, whatever becomes
of each of them. -/
theorem run_documents {σ : Type} {program : Program} {classes : List ClassInfo}
    (hc : program.classes = .ok classes) (config : Config σ) (sink : σ) :
    (run program config sink).value.2 = handOver config.sink? sink
      (documents program config.keying config.selection classes) := by
  simp only [run, hc, Logged.value_bind, Logged.value_pure]
  exact sink_foldlM config.sink? (sink_scanClass program config) classes ⟨{}, 0, sink⟩

theorem callGraph_of_run {σ : Type} {program : Program} {config : Config σ} {sink last : σ}
    {outcome : Outcome} (h : (run program config sink).value = (.ok outcome, last)) :
    outcome.callGraph = (buildCallGraph program).value := by
  simp only [run, Logged.value_bind] at h
  cases hc : program.classes with
  | error e => simp [hc] at h
  | ok classes =>
    simp only [hc, Logged.value_bind, Logged.value_pure, Prod.mk.injEq, Except.ok.injEq] at h
    rw [← h.1]
    rfl

end PermissionAudit.Detection
