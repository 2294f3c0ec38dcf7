import PermissionAudit.Proofs.Detection.Documents
import PermissionAudit.Proofs.Detection.Independence
import PermissionAudit.Proofs.Detection.Restriction

/-!
What the counts of a run count. Classes are counted as they are met, and methods as
they are scanned, with a body or without; a sink is called for each body. To say what
it was called with, a sink is traced: it behaves as before, with the list of its calls
beside its state. A run is followed step by step by the run with the traced sink, and
in this one the failed calls of the list are those that were counted.
-/

namespace PermissionAudit

/-- A call of a sink, and what it answered. -/
structure SinkCall where
  name : String
  document : String
  answer : Except AnalysisError Unit

def SinkCall.failed (call : SinkCall) : Bool := !call.answer.isOk

/-- The sink with the list of its calls beside its state. -/
def GraphSink.traced {σ : Type} (sink : GraphSink σ) : GraphSink (σ × List SinkCall) where
  write name document s := do
    let (answer, state) ← sink.write name document s.1
    return (answer, state, s.2 ++ [⟨name, document, answer⟩])

namespace Detection

variable {σ : Type}

def Config.traced (config : Config σ) : Config (σ × List SinkCall) :=
  ⟨config.index, config.selection, config.keying, config.sink?.map GraphSink.traced⟩

/-! ## What there is to count -/

/-- Whether a method has a body that can be had. -/
def hasBody (program : Program) (m : MethodInfo) : Bool := (program.body m).value.isOk

/-- The scanned methods that have a body, each with its class and the body, in order. -/
def analyzed (program : Program) (selection : Selection) (classes : List ClassInfo) :
    List (ClassInfo × MethodInfo × Body) :=
  (scanned selection classes).filterMap fun d =>
    (program.body d.2).value.toOption.map fun body => (d.1, d.2, body)

/-- The flow graph of an analysed method under its file name. -/
def documentOf (keying : NodeKeying) (a : ClassInfo × MethodInfo × Body) : String × String :=
  let name := FileName.flowGraph a.1.simpleName a.2.1.name
  (name, (FlowGraph.build a.2.2 keying).value.dot name)

theorem documents_eq_map (program : Program) (keying : NodeKeying) (selection : Selection)
    (classes : List ClassInfo) :
    documents program keying selection classes =
      (analyzed program selection classes).map (documentOf keying) := by
  have each (d : ClassInfo × MethodInfo) : methodDocuments program keying d.1 d.2 =
      (((program.body d.2).value.toOption.map fun body => (d.1, d.2, body)).map
        (documentOf keying)).toList := by
    rw [methodDocuments]
    cases (program.body d.2).value with
    | error e => rfl
    | ok body => rfl
  rw [analyzed, List.map_filterMap, List.filterMap_eq_flatMap_toList, scanned_eq_flatMap,
    List.flatMap_assoc, documents]
  refine List.flatMap_congr fun c _ => ?_
  rw [List.flatMap_map]
  exact List.flatMap_congr fun m _ => each (c, m)

theorem length_analyzed (program : Program) (selection : Selection) (classes : List ClassInfo) :
    (analyzed program selection classes).length =
      (classes.flatMap (selectedMethods selection)).countP (hasBody program) := by
  rw [flatMap_selectedMethods, List.countP_map, analyzed, List.length_filterMap_eq_countP]
  refine List.countP_congr fun d _ => ?_
  rw [Option.isSome_map, Function.comp_apply, hasBody]
  cases (program.body d.2).value with
  | error e => rfl
  | ok body => rfl

/-! ## Counting -/

/-- The tally when some more methods have been scanned. -/
def Tally.withMethods (program : Program) (t : Tally) (methods : List MethodInfo) : Tally :=
  { t with
    methods := t.methods + methods.length
    analyzed := t.analyzed + methods.countP (hasBody program)
    skippedBodies := t.skippedBodies + methods.countP fun m => !hasBody program m }

/-- The tally when some more classes have been scanned. -/
def Tally.withClasses (program : Program) (selection : Selection) (t : Tally)
    (classes : List ClassInfo) : Tally :=
  { t.withMethods program (classes.flatMap (selectedMethods selection)) with
    classes := t.classes + classes.countP fun c => !c.phantom && selection.selectsClass c.name
    phantomClasses := t.phantomClasses + classes.countP (·.phantom) }

theorem Tally.withMethods_append (program : Program) (t : Tally) (methods more : List MethodInfo) :
    t.withMethods program (methods ++ more) =
      (t.withMethods program methods).withMethods program more := by
  simp [withMethods, Nat.add_assoc]

theorem Tally.withClasses_append (program : Program) (selection : Selection) (t : Tally)
    (classes more : List ClassInfo) :
    t.withClasses program selection (classes ++ more) =
      (t.withClasses program selection classes).withClasses program selection more := by
  simp [withClasses, withMethods, Nat.add_assoc]

section

variable (program : Program) (config : Config σ)

theorem tally_add (index : PermissionIndex) (f : Findings) (site : CallSite) :
    (f.add index site).value.tally = f.tally := by
  by_cases known : site.api ∈ f.apis
  · simp [Findings.add, known]
  · simp [Findings.add, known]

theorem tally_scanInstr (index : PermissionIndex) (m : MethodInfo) (f : Findings)
    (instr : BodyInstr) : (f.scanInstr index m instr).value.tally = f.tally := by
  simp only [Findings.scanInstr, BodyInstr.classify, Logged.value_bind]
  cases instr.site? m index with
  | none => rfl
  | some site => exact tally_add index f site

theorem tally_scanBody (c : ClassInfo) (m : MethodInfo) (b : Body) (p : Progress σ) :
    (scanBody config c m b p).value.findings.tally = p.findings.tally := by
  simp only [scanBody, Logged.value_bind, Logged.value_pure, Logged.value_foldlM,
    findings_writeGraph]
  refine List.foldlRecOn (motive := fun f : Findings => f.tally = p.findings.tally) b.instrs _ rfl ?_
  intro f hf instr _
  rw [tally_scanInstr, hf]

theorem tally_scanMethod (c : ClassInfo) (p : Progress σ) (m : MethodInfo) :
    (scanMethod program config c p m).value.findings.tally =
      p.findings.tally.withMethods program [m] := by
  simp only [scanMethod, Logged.value_bind]
  rcases h : (program.body m).value with e | b
  · simp [Tally.withMethods, hasBody, h, Except.isOk, Except.toBool, Progress.count]
  · rw [tally_scanBody]
    simp [Tally.withMethods, hasBody, h, Except.isOk, Except.toBool, Progress.count]

theorem tally_scanMethods (c : ClassInfo) (methods : List MethodInfo) (p : Progress σ) :
    (methods.foldlM (scanMethod program config c) p).value.findings.tally =
      p.findings.tally.withMethods program methods := by
  induction methods generalizing p with
  | nil => rfl
  | cons m rest ih =>
    rw [List.foldlM_cons, Logged.value_bind, ih, tally_scanMethod, ← Tally.withMethods_append,
      List.singleton_append]

theorem tally_scanClass (p : Progress σ) (c : ClassInfo) :
    (scanClass program config p c).value.findings.tally =
      p.findings.tally.withClasses program config.selection [c] := by
  rw [scanClass]
  by_cases phantom : c.phantom = true
  · simp [phantom, Tally.withClasses, Tally.withMethods, selectedMethods, Progress.count]
  · by_cases selected : config.selection.selectsClass c.name = true
    · rw [if_neg phantom, if_pos selected, tally_scanMethods]
      simp [phantom, selected, Tally.withClasses, Tally.withMethods, selectedMethods,
        Progress.count]
    · simp [phantom, selected, Tally.withClasses, Tally.withMethods, selectedMethods]

theorem tally_scanClasses (classes : List ClassInfo) (p : Progress σ) :
    (classes.foldlM (scanClass program config) p).value.findings.tally =
      p.findings.tally.withClasses program config.selection classes := by
  induction classes generalizing p with
  | nil => rfl
  | cons c rest ih =>
    rw [List.foldlM_cons, Logged.value_bind, ih, tally_scanClass, ← Tally.withClasses_append,
      List.singleton_append]

end

/-! ## Tracing -/

/-- A run and the run with its sink traced: both have found the same, and their sinks are in the
same state. The failed calls of the list are those that were counted. -/
structure Follows (p : Progress σ) (q : Progress (σ × List SinkCall)) : Prop where
  findings : p.findings = q.findings
  writeFailures : p.writeFailures = q.writeFailures
  sink : p.sink = q.sink.1
  failed : q.writeFailures = q.sink.2.countP SinkCall.failed

section

variable {program : Program} {config : Config σ} {p : Progress σ}
  {q : Progress (σ × List SinkCall)}

theorem Follows.count (h : Follows p q) (f : Tally → Tally) : Follows (p.count f) (q.count f) :=
  ⟨findings_count h.findings f, h.writeFailures, h.sink, h.failed⟩

theorem Follows.writeGraph (h : Follows p q) (sink? : Option (GraphSink σ)) (c : ClassInfo)
    (m : MethodInfo) (graph : FlowGraph) :
    Follows (writeGraph sink? c m graph p).value
      (writeGraph (sink?.map GraphSink.traced) c m graph q).value := by
  cases sink? with
  | none => exact h
  | some sink =>
    simp only [Detection.writeGraph, Option.map_some, GraphSink.traced, Logged.value_bind,
      Logged.value_pure, ← h.sink]
    rcases hw : (sink.write (FileName.flowGraph c.simpleName m.name)
      (graph.dot (FileName.flowGraph c.simpleName m.name)) p.sink).value with ⟨answer, state⟩
    cases answer with
    | ok _ =>
      refine ⟨h.findings, h.writeFailures, rfl, ?_⟩
      simp [h.failed, SinkCall.failed, Except.isOk, Except.toBool]
    | error e =>
      refine ⟨h.findings, congrArg (· + 1) h.writeFailures, rfl, ?_⟩
      simp [h.failed, SinkCall.failed, Except.isOk, Except.toBool]

theorem Follows.scanBody (h : Follows p q) (c : ClassInfo) (m : MethodInfo) (b : Body) :
    Follows (scanBody config c m b p).value (scanBody config.traced c m b q).value := by
  have written := h.writeGraph config.sink? c m (FlowGraph.build b config.keying).value
  simp only [Detection.scanBody, Logged.value_bind, Logged.value_pure]
  refine ⟨?_, written.writeFailures, written.sink, written.failed⟩
  rw [written.findings]
  rfl

theorem Follows.scanMethod (h : Follows p q) (c : ClassInfo) (m : MethodInfo) :
    Follows (scanMethod program config c p m).value
      (scanMethod program config.traced c q m).value := by
  simp only [Detection.scanMethod, Logged.value_bind]
  cases (program.body m).value with
  | error e =>
    simp only [Logged.value_bind, Logged.value_pure]
    exact (h.count _).count _
  | ok b => exact ((h.count _).count _).scanBody c m b

theorem Follows.scanClass (h : Follows p q) (c : ClassInfo) :
    Follows (scanClass program config p c).value (scanClass program config.traced q c).value := by
  have selection : config.traced.selection = config.selection := rfl
  unfold Detection.scanClass
  rw [selection]
  split
  · simp only [Logged.value_bind, Logged.value_pure]
    exact h.count _
  · split
    · apply foldlM_related (R := Follows)
      · intro p q m h
        exact h.scanMethod c m
      · exact h.count _
    · exact h

end

/-- A traced sink that was handed some documents has been called with these. -/
theorem calls_handOver (sink : GraphSink σ) (s : σ) (calls : List SinkCall)
    (docs : List (String × String)) :
    (handOver (some sink.traced) (s, calls) docs).2.map (fun call => (call.name, call.document)) =
      calls.map (fun call => (call.name, call.document)) ++ docs := by
  induction docs generalizing s calls with
  | nil => simp
  | cons doc rest ih =>
    show (handOver (some sink.traced) (_, calls ++ [⟨doc.1, doc.2, _⟩]) rest).2.map _ = _
    rw [ih, List.map_append, List.append_assoc]
    rfl

/-! ## The whole run -/

/-- What the outcome of a run over the listed classes says, with the calls of its sink. -/
structure Accounts (program : Program) (config : Config σ) (listed : List ClassInfo)
    (outcome : Outcome) (calls : List SinkCall) : Prop where
  phantomClasses : outcome.stats.tally.phantomClasses = listed.countP (·.phantom)
  classes : outcome.stats.tally.classes =
    listed.countP fun c => !c.phantom && config.selection.selectsClass c.name
  methods : outcome.stats.tally.methods = (scanned config.selection listed).length
  bodies : outcome.stats.tally.analyzed = (analyzed program config.selection listed).length
  skippedBodies : outcome.stats.tally.analyzed + outcome.stats.tally.skippedBodies =
    outcome.stats.tally.methods
  /-- One call for each body, in order. -/
  called : config.sink?.isSome → calls.map (fun call => (call.name, call.document)) =
    (analyzed program config.selection listed).map (documentOf config.keying)
  notCalled : config.sink? = none → calls = []
  writeFailures : outcome.stats.writeFailures = calls.countP SinkCall.failed

theorem Accounts.of_follows {program : Program} {config : Config σ} {listed : List ClassInfo}
    {p : Progress σ} {q : Progress (σ × List SinkCall)} {s : σ} (follows : Follows p q)
    (tally : p.findings.tally = ({} : Tally).withClasses program config.selection listed)
    (handed : q.sink = handOver config.traced.sink? (s, [])
      (documents program config.keying config.selection listed))
    (callGraph : Option CallGraph) :
    Accounts program config listed (.ofFindings p.findings p.writeFailures callGraph) q.sink.2 where
  phantomClasses := by
    rw [Outcome.ofFindings, tally]
    exact Nat.zero_add _
  classes := by
    rw [Outcome.ofFindings, tally]
    exact Nat.zero_add _
  methods := by
    have counted := congrArg List.length (flatMap_selectedMethods config.selection listed)
    rw [Outcome.ofFindings, tally, ← List.length_map (f := Prod.snd), ← counted]
    exact Nat.zero_add _
  bodies := by
    rw [Outcome.ofFindings, tally, length_analyzed]
    exact Nat.zero_add _
  skippedBodies := by
    rw [Outcome.ofFindings, tally]
    simp [Tally.withClasses, Tally.withMethods,
      List.length_eq_countP_add_countP (hasBody program)]
  called := by
    intro given
    obtain ⟨sink, hsink⟩ := Option.isSome_iff_exists.mp given
    rw [handed, documents_eq_map, Config.traced, hsink]
    exact calls_handOver sink s [] _
  notCalled := by
    intro none
    rw [handed, Config.traced, none]
    rfl
  writeFailures := follows.writeFailures.trans follows.failed

/-- **The counts of a run.** It fails exactly if the classes cannot be listed. Else it counts the
phantom classes, the others that pass the filter, their methods that pass the filter, and of these
the ones with a body and the ones without. Its sink is called once for each body, in order of
classes and methods, with the file name of the method and its flow graph under this name; what is
counted as failures is the calls that fail. -/
theorem run_accounts (program : Program) (config : Config σ) (s : σ) :
    (∀ e, (run program config s).value.1 = .error e ↔ program.classes = .error e) ∧
      ∀ listed, program.classes = .ok listed → ∃ outcome last calls,
        (run program config s).value = (.ok outcome, last) ∧
        (run program config.traced (s, [])).value = (.ok outcome, last, calls) ∧
        Accounts program config listed outcome calls := by
  refine ⟨fun e => ?_, fun listed hc => ?_⟩
  · simp only [run, Logged.value_bind]
    cases program.classes with
    | error e => simp
    | ok listed => simp
  · have follows : Follows (listed.foldlM (scanClass program config) ⟨{}, 0, s⟩).value
        (listed.foldlM (scanClass program config.traced) ⟨{}, 0, s, []⟩).value :=
      foldlM_related (R := Follows) (fun p q c h => h.scanClass c) listed ⟨rfl, rfl, rfl, rfl⟩
    have tally := tally_scanClasses program config listed ⟨{}, 0, s⟩
    have handed := run_documents hc config.traced (s, [])
    simp only [run, hc, Logged.value_bind, Logged.value_pure] at handed ⊢
    refine ⟨_, _, _, rfl, ?_, .of_follows follows tally handed _⟩
    rw [follows.findings, follows.writeFailures, follows.sink]

/-- A class with three methods of which one has no body, and a phantom class. -/
def mixedClasses : List ClassInfo :=
  [⟨"app.Main", none, [], false, [⟨0, "app.Main", "start", true⟩, ⟨1, "app.Main", "stop", false⟩,
      ⟨2, "app.Main", "<init>", true⟩]⟩,
    ⟨"dev.Camera", none, [], true, [⟨3, "dev.Camera", "take", true⟩]⟩]

def mixedProgram : Program where
  classes := .ok mixedClasses
  body m :=
    if m.hasBody then
      pure ((Body.make [⟨0, pure "return-void", none⟩] [[]]).mapError .malformedBody)
    else
      pure (.error .noCode)
  callGraph? := none

/-- A sink that counts its calls and has room for one document. -/
def smallSink : GraphSink Nat where
  write _ _ calls :=
    pure (if calls = 0 then .ok () else .error (.internal "disk full"), calls + 1)

/-- The second of two documents cannot be written, which is counted. -/
theorem mixedProgram_accounted :
    let config : Config Nat := ⟨cameraIndex, .all, .label, some smallSink⟩
    mixedProgram.classes = .ok mixedClasses ∧
    ∃ outcome calls, (run mixedProgram config 0).value = (.ok outcome, 2) ∧
      (run mixedProgram config.traced (0, [])).value = (.ok outcome, 2, calls) ∧
      outcome.stats.tally.phantomClasses = 1 ∧ outcome.stats.tally.classes = 1 ∧
      outcome.stats.tally.methods = 3 ∧ outcome.stats.tally.analyzed = 2 ∧
      outcome.stats.tally.skippedBodies = 1 ∧ outcome.stats.writeFailures = 1 ∧
      calls.map (·.name) = ["Main_start.dot", "Main_constructor.dot"] := by
  intro config
  have hc : mixedProgram.classes = .ok mixedClasses := rfl
  obtain ⟨outcome, last, calls, hrun, htraced, accounts⟩ :=
    (run_accounts mixedProgram config 0).2 mixedClasses hc
  obtain rfl : last = 2 := (congrArg Prod.snd hrun).symm
  have methods : outcome.stats.tally.methods = 3 := accounts.methods
  have bodies : outcome.stats.tally.analyzed = 2 := accounts.bodies
  have skipped : outcome.stats.tally.skippedBodies = 1 := by
    have := accounts.skippedBodies
    omega
  have failed : calls.countP SinkCall.failed = 1 := by
    have hcalls : (run mixedProgram config.traced (0, [])).value.2.2 = calls :=
      congrArg (·.2.2) htraced
    rw [← hcalls]
    rfl
  have names := congrArg (List.map Prod.fst) (accounts.called rfl)
  rw [List.map_map] at names
  exact ⟨hc, outcome, calls, hrun, htraced, accounts.phantomClasses, accounts.classes, methods,
    bodies, skipped, accounts.writeFailures.trans failed, names⟩

end Detection

end PermissionAudit
