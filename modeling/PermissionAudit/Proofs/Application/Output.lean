import PermissionAudit.Application.Scan
import PermissionAudit.Proofs.Detection.Documents

/-!
Fatal errors leave no output. A scan has three parts: what it reads, the making
of the output directory, and what it writes. The first changes no file. The last
cannot fail: each document is tried in turn, and which documents there are does
not depend on what became of those before.
-/

namespace PermissionAudit

/-! ## Steps of a scan -/

namespace Scan

variable {α β : Type}

/-- The result of a step and the world after it, without the log. -/
def eval (m : Scan α) (w : World) : Except ScanError α × World := (m.run.run w).value

theorem eval_bind (m : Scan α) (f : α → Scan β) (w : World) :
    eval (m >>= f) w =
      match eval m w with
      | (.ok a, w) => eval (f a) w
      | (.error e, w) => (.error e, w) := by
  show (ExceptT.run (m >>= f) |>.run w).value = _
  rw [ExceptT.run_bind, StateT.run_bind, Logged.value_bind]
  rcases h : eval m w with ⟨result, after⟩
  have hm : (m.run.run w).value = (result, after) := h
  rw [hm]
  cases result with
  | error e => rfl
  | ok a => rfl

@[simp] theorem eval_files (w : World) : eval files w = (.ok w.files, w) := rfl

theorem exists_of_eval_bind {m : Scan α} {f : α → Scan β} {w : World} {b : β}
    (h : (eval (m >>= f) w).1 = .ok b) :
    ∃ a w', eval m w = (.ok a, w') ∧ (eval (f a) w').1 = .ok b := by
  rw [eval_bind] at h
  rcases hm : eval m w with ⟨result, after⟩
  rw [hm] at h
  cases result with
  | error e => cases h
  | ok a => exact ⟨a, after, rfl, h⟩

/-! ## Steps that change no file -/

/-- Whatever its result, the step leaves all files as they are. -/
def KeepsFiles (m : Scan α) : Prop := ∀ w, (eval m w).2.files = w.files

theorem KeepsFiles.pure (a : α) : KeepsFiles (Pure.pure a : Scan α) := fun _ => rfl

theorem KeepsFiles.throw (e : ScanError) : KeepsFiles (MonadExcept.throw e : Scan α) := fun _ => rfl

theorem KeepsFiles.print (line : String) : KeepsFiles (print line) := fun _ => rfl

theorem KeepsFiles.log (m : Logged Unit) : KeepsFiles (log m) := fun _ => rfl

theorem KeepsFiles.files : KeepsFiles files := fun _ => rfl

theorem KeepsFiles.liftM (m : Logged α) : KeepsFiles (liftM m : Scan α) := fun _ => rfl

theorem KeepsFiles.bind {m : Scan α} {f : α → Scan β} (hm : KeepsFiles m)
    (hf : ∀ a, KeepsFiles (f a)) : KeepsFiles (m >>= f) := by
  intro w
  have first := hm w
  rw [eval_bind]
  rcases h : eval m w with ⟨result, after⟩
  rw [h] at first
  cases result with
  | error e => exact first
  | ok a => exact (hf a after).trans first

theorem KeepsFiles.attempt (a : Attempt ScanError α) : KeepsFiles (attempt a) := by
  apply KeepsFiles.bind (KeepsFiles.liftM a.run)
  intro result
  cases result with
  | ok a => exact KeepsFiles.pure a
  | error e => exact KeepsFiles.throw e

/-- A loop keeps the files if its body does. -/
theorem KeepsFiles.forIn {xs : List β} {f : β → α → Scan (ForInStep α)}
    (hf : ∀ x a, KeepsFiles (f x a)) (a : α) : KeepsFiles (ForIn.forIn xs a f) := by
  induction xs generalizing a with
  | nil => exact KeepsFiles.pure a
  | cons x rest ih =>
    rw [List.forIn_cons]
    apply (hf x a).bind
    intro next
    cases next with
    | done a => exact KeepsFiles.pure a
    | yield a => exact ih a

theorem keepsFiles_requireFile (kind : InputKind) (path : String) :
    KeepsFiles (requireFile kind path) := by
  apply KeepsFiles.files.bind
  intro fs
  split
  · exact KeepsFiles.throw _
  · exact KeepsFiles.pure ()

theorem keepsFiles_readSelection (args : Arguments) : KeepsFiles (readSelection args) := by
  unfold readSelection
  split
  · exact KeepsFiles.throw _
  · split
    · exact KeepsFiles.throw _
    · exact (KeepsFiles.log _).bind fun _ => KeepsFiles.pure _

theorem keepsFiles_readTable (path : String) : KeepsFiles (readTable path) := by
  apply (KeepsFiles.print _).bind
  intro _
  apply KeepsFiles.files.bind
  intro fs
  split
  · exact KeepsFiles.throw _
  · apply (KeepsFiles.attempt _).bind
    intro index
    apply (KeepsFiles.print _).bind
    intro _
    apply KeepsFiles.bind
    · apply KeepsFiles.forIn
      intro permission _
      exact (KeepsFiles.print _).bind fun _ => KeepsFiles.pure _
    · intro _
      apply KeepsFiles.bind
      · apply KeepsFiles.forIn
        intro permission _
        exact (KeepsFiles.log _).bind fun _ => KeepsFiles.pure _
      · intro _
        exact KeepsFiles.pure index

theorem keepsFiles_readProgram (args : Arguments) : KeepsFiles (readProgram args) := by
  apply KeepsFiles.files.bind
  intro fs
  apply (KeepsFiles.attempt _).bind
  intro input
  apply (KeepsFiles.liftM _).bind
  intro registry
  exact (KeepsFiles.log _).bind fun _ => KeepsFiles.pure _

/-- Reading changes no file, whether it succeeds or not. -/
theorem keepsFiles_prepare (args : Arguments) : KeepsFiles (prepare args) := by
  apply (keepsFiles_requireFile _ _).bind
  intro _
  apply (keepsFiles_requireFile _ _).bind
  intro _
  apply (keepsFiles_readSelection args).bind
  intro selection
  apply (KeepsFiles.print _).bind
  intro _
  apply (keepsFiles_readTable _).bind
  intro index
  apply (keepsFiles_readProgram args).bind
  intro program
  exact KeepsFiles.pure _

/-- What was read is a registry, seen as a program. -/
theorem exists_registry_of_prepare {args : Arguments} {w : World} {index : PermissionIndex}
    {selection : Selection} {program : Program}
    (h : (eval (prepare args) w).1 = .ok (index, selection, program)) :
    ∃ registry : Registry, program = registry.toProgram := by
  obtain ⟨_, w, -, h⟩ := exists_of_eval_bind h
  obtain ⟨_, w, -, h⟩ := exists_of_eval_bind h
  obtain ⟨_, w, -, h⟩ := exists_of_eval_bind h
  obtain ⟨_, w, -, h⟩ := exists_of_eval_bind h
  obtain ⟨_, w, -, h⟩ := exists_of_eval_bind h
  obtain ⟨read, w', hread, h⟩ := exists_of_eval_bind h
  -- the program is the last thing read, and it is handed on as it is
  obtain rfl : read = program := by
    simpa using congrArg (fun p => p.2.2) (Except.ok.inj h)
  have hread : (eval (readProgram args) w).1 = .ok read := by rw [hread]
  obtain ⟨_, w, -, h⟩ := exists_of_eval_bind hread
  obtain ⟨_, w, -, h⟩ := exists_of_eval_bind h
  obtain ⟨registry, w, -, h⟩ := exists_of_eval_bind h
  obtain ⟨_, w, -, h⟩ := exists_of_eval_bind h
  exact ⟨registry, (Except.ok.inj h).symm⟩

/-! ## Steps that cannot fail -/

/-- The step succeeds with a result, and the files are then the given ones. -/
def Ends (m : Scan α) (w : World) (a : α) (fs : FileSystem) : Prop :=
  (eval m w).1 = .ok a ∧ (eval m w).2.files = fs

theorem Ends.bind {m : Scan α} {f : α → Scan β} {w : World} {a : α} {b : β} {fs fs' : FileSystem}
    (hm : Ends m w a fs) (hf : ∀ w', w'.files = fs → Ends (f a) w' b fs') :
    Ends (m >>= f) w b fs' := by
  obtain ⟨hok, hfiles⟩ := hm
  unfold Ends
  rw [eval_bind]
  rcases h : eval m w with ⟨result, after⟩
  rw [h] at hok hfiles
  obtain rfl : result = .ok a := hok
  exact hf after hfiles

theorem Ends.print (line : String) (w : World) : Ends (print line) w () w.files := ⟨rfl, rfl⟩

theorem Ends.log (m : Logged Unit) (w : World) : Ends (log m) w () w.files := ⟨rfl, rfl⟩

theorem Ends.files (w : World) : Ends files w w.files w.files := ⟨rfl, rfl⟩

theorem Ends.setFiles (fs : FileSystem) (w : World) : Ends (setFiles fs) w () fs := ⟨rfl, rfl⟩

theorem Ends.liftM (m : Logged α) (w : World) : Ends (liftM m : Scan α) w m.value w.files :=
  ⟨rfl, rfl⟩

theorem Ends.pure (a : α) (w : World) : Ends (Pure.pure a : Scan α) w a w.files := ⟨rfl, rfl⟩

end Scan

/-! ## Documents -/

/-- Writes a document to its path if that is possible; else all files stay as they are. -/
def FileSystem.tryWrite (fs : FileSystem) (document : String × Bytes) : FileSystem :=
  match fs.write document.1 document.2 with
  | .ok after => after
  | .error _ => fs

/-- The documents of a scan and their paths, in order: the flow graphs, the call graph if it is
asked for, and the report. What is in the files plays no part in it. -/
def outputs (args : Arguments) (index : PermissionIndex) (selection : Selection)
    (registry : Registry) : List (String × Bytes) :=
  let program := registry.toProgram
  let keying := if args.distinctNodes then .instruction else .label
  let graphs := if args.noFlowGraphs then []
    else Detection.documents program keying selection registry.classes
  let callGraph := (CallGraph.build registry.classes program.body).value
  let usage := UsageReport.ofSites
    (distinctBy CallSite.place (Detection.sites program index selection registry.classes))
  (graphs.map fun d => (FilePath.join args.output d.1, Utf8.encode d.2)) ++
    (args.callGraph.toList.map fun path => (path, Utf8.encode callGraph.dot)) ++
    [(FilePath.join args.output FileName.usage, Utf8.encode usage.text)]

theorem handOver_directory (output : String) (fs : FileSystem) (docs : List (String × String)) :
    Detection.handOver (some (GraphSink.directory output)) fs docs =
      (docs.map fun d => (FilePath.join output d.1, Utf8.encode d.2)).foldl
        FileSystem.tryWrite fs := by
  rw [List.foldl_map]
  refine List.foldl_ext _ _ _ fun fs d _ => ?_
  simp only [GraphSink.directory, FileSystem.tryWrite]
  cases hw : fs.write (FilePath.join output d.1) (Utf8.encode d.2) with
  | ok after =>
    split
    · rfl
    · rfl
  | error fault =>
    split
    · rfl
    · rfl

/-- Without a sink nothing is written; so it is if there are no documents. -/
theorem handOver_config (args : Arguments) (index : PermissionIndex) (selection : Selection)
    (fs : FileSystem) (docs : List (String × String)) :
    Detection.handOver (Scan.config args index selection).sink? fs docs =
      ((if args.noFlowGraphs then [] else docs).map fun d =>
        (FilePath.join args.output d.1, Utf8.encode d.2)).foldl FileSystem.tryWrite fs := by
  have hsink : (Scan.config args index selection).sink? =
    if args.noFlowGraphs then none else some (.directory args.output) := rfl
  rw [hsink]
  split
  · rfl
  · exact handOver_directory args.output fs docs

/-! ## Writing -/

namespace Scan

/-- The detection reports on its run and changes no more than that did. -/
theorem ends_detect {args : Arguments} {program : Program} {index : PermissionIndex}
    {selection : Selection} {w : World} {outcome : Detection.Outcome} {fs : FileSystem}
    (hrun : (Detection.run program (config args index selection) w.files).value =
      (.ok outcome, fs)) :
    Ends (detect args program index selection) w outcome fs := by
  apply (Ends.print _ w).bind
  intro w' hfiles
  rw [← hfiles] at hrun
  apply (Ends.files w').bind
  intro w' _
  apply (Ends.liftM _ w').bind
  intro w' _
  rw [hrun]
  apply (Ends.setFiles fs w').bind
  intro w' hfiles
  apply (Ends.print _ w').bind
  intro w'' hfiles'
  obtain rfl : w''.files = fs := hfiles'.trans hfiles
  dsimp only
  split
  · apply (Ends.log _ w'').bind
    intro w' hfiles
    rw [← hfiles]
    split
    · exact (Ends.log _ w').bind fun w'' h => h ▸ Ends.pure outcome w''
    · exact Ends.pure outcome w'
  · split
    · exact (Ends.log _ w'').bind fun w' h => h ▸ Ends.pure outcome w'
    · exact Ends.pure outcome w''

theorem ends_writeCallGraph (args : Arguments) (graph : CallGraph) (w : World) :
    Ends (writeCallGraph args (some graph)) w ()
      ((args.callGraph.toList.map fun path => (path, Utf8.encode graph.dot)).foldl
        FileSystem.tryWrite w.files) := by
  unfold writeCallGraph
  cases args.callGraph with
  | none => exact Ends.pure () w
  | some path =>
    apply (Ends.files w).bind
    intro w' hfiles
    show Ends _ w' () (w.files.tryWrite (path, Utf8.encode graph.dot))
    unfold FileSystem.tryWrite
    cases w.files.write path (Utf8.encode graph.dot) with
    | ok fs => exact (Ends.setFiles fs w').bind fun w'' h => h ▸ Ends.log _ w''
    | error fault => exact hfiles ▸ Ends.log _ w'

theorem ends_writeReport (args : Arguments) (usage : UsageReport) (w : World) :
    Ends (writeReport args usage) w () (w.files.tryWrite
      (FilePath.join args.output FileName.usage, Utf8.encode usage.text)) := by
  apply (Ends.print _ w).bind
  intro w' hfiles
  apply (Ends.files w').bind
  intro w'' hfiles'
  rw [← hfiles]
  unfold FileSystem.tryWrite
  cases w'.files.write (FilePath.join args.output FileName.usage) (Utf8.encode usage.text) with
  | error fault => exact hfiles' ▸ Ends.log _ w''
  | ok fs =>
    apply (Ends.setFiles fs w'').bind
    intro w hfiles
    rw [← hfiles]
    split
    · exact Ends.print _ w
    · exact Ends.print _ w

theorem eval_makeOutput (path : String) (w : World) :
    eval (makeOutput path) w =
      match w.files.makeDirectories (.ofString path) with
      | (.ok (), made) => (.ok (), { w with files := made })
      | (.error fault, made) => (.error (.file fault), { w with files := made }) := by
  unfold makeOutput
  rw [eval_bind]
  rcases h : w.files.makeDirectories (.ofString path) with ⟨result, made⟩
  simp only [eval_files, h]
  cases result with
  | ok _ => rfl
  | error fault => rfl

/-- **What is written** once the output directory is made: every document is tried, and the scan
succeeds. -/
theorem ends_finish (args : Arguments) (index : PermissionIndex) (selection : Selection)
    (registry : Registry) (w : World) :
    Ends (finish args index selection registry.toProgram) w ()
      ((outputs args index selection registry).foldl FileSystem.tryWrite w.files) := by
  have hc : registry.toProgram.classes = .ok registry.classes := rfl
  obtain ⟨outcome, last, hrun, husage⟩ :=
    Detection.run_usage hc (config args index selection) w.files
  have hgraph : outcome.callGraph =
      some (CallGraph.build registry.classes registry.toProgram.body).value :=
    Detection.callGraph_of_run hrun
  have hlast : last = _ :=
    (congrArg Prod.snd hrun).symm.trans
      (Detection.run_documents hc (config args index selection) w.files)
  rw [handOver_config] at hlast
  apply (ends_detect hrun).bind
  intro w₁ hw₁
  rw [hgraph, husage]
  apply (ends_writeCallGraph args _ w₁).bind
  intro w₂ hw₂
  have report := ends_writeReport args (.ofSites (distinctBy CallSite.place
    (Detection.sites registry.toProgram index selection registry.classes))) w₂
  rw [hw₂, hw₁, hlast] at report
  unfold outputs
  rw [List.foldl_append, List.foldl_append]
  exact report

end Scan

/-- **Fatal errors leave no output.** A scan ends in one of three ways. What it has to read cannot
be read, and no file is changed. Or all is read, and the output directory cannot be made. Or the
directory is made, and the scan succeeds: every document is tried, whatever became of those before
it. -/
theorem scan_fails_before_output (args : Arguments) (files : FileSystem) :
    let prepared := (Scan.eval (Scan.prepare args) ⟨files, []⟩).1
    let result := (scan args files).value.1
    let after := (scan args files).value.2.files
    (∃ e, prepared = .error e ∧ result = .error e ∧ after = files) ∨
    (∃ read fault, prepared = .ok read ∧
      files.makeDirectories (.ofString args.output) = (.error fault, after) ∧
      result = .error (.file fault)) ∨
    (∃ index selection registry made, prepared = .ok (index, selection, registry.toProgram) ∧
      files.makeDirectories (.ofString args.output) = (.ok (), made) ∧ result = .ok () ∧
      after = (outputs args index selection registry).foldl FileSystem.tryWrite made) := by
  intro prepared result after
  have hkeep := Scan.keepsFiles_prepare args ⟨files, []⟩
  have hscan : (scan args files).value = Scan.eval (Scan.perform args) ⟨files, []⟩ := rfl
  unfold Scan.perform at hscan
  rw [Scan.eval_bind] at hscan
  rcases hp : Scan.eval (Scan.prepare args) ⟨files, []⟩ with ⟨read, w⟩
  rw [hp] at hscan hkeep
  cases read with
  | error e =>
    have hend : (scan args files).value = (.error e, w) := hscan
    refine .inl ⟨e, congrArg Prod.fst hp, congrArg Prod.fst hend, ?_⟩
    exact (congrArg (·.2.files) hend).trans hkeep
  | ok read =>
    obtain ⟨index, selection, program⟩ := read
    obtain ⟨registry, rfl⟩ := Scan.exists_registry_of_prepare (congrArg Prod.fst hp)
    simp only [Scan.eval_bind, Scan.eval_makeOutput] at hscan
    rw [show w.files = files from hkeep] at hscan
    rcases hm : files.makeDirectories (.ofString args.output) with ⟨made?, made⟩
    rw [hm] at hscan
    cases made? with
    | error fault =>
      refine .inr (.inl ⟨_, fault, congrArg Prod.fst hp, ?_, congrArg Prod.fst hscan⟩)
      rw [show after = made from congrArg (·.2.files) hscan]
    | ok _ =>
      obtain ⟨hok, hfiles⟩ :=
        Scan.ends_finish args index selection registry { w with files := made }
      exact .inr (.inr ⟨index, selection, registry, made, congrArg Prod.fst hp, rfl,
        (congrArg Prod.fst hscan).trans hok, (congrArg (·.2.files) hscan).trans hfiles⟩)

end PermissionAudit
