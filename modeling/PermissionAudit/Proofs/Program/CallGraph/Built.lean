import Mathlib.Data.List.Induction
import PermissionAudit.Proofs.Program.CallGraph.Recorded
import PermissionAudit.Sequence.Fold

/-!
The built graph represents the calls of the program: those of each method of
each class that is not phantom, instruction by instruction. From there on every
question about the graph is one about a list of calls.
-/

namespace PermissionAudit.CallGraph

/-- Qualified names of the methods that classes declare, in order. -/
def declaredNames (classes : List ClassInfo) : List String :=
  classes.flatMap fun c => c.methods.map fun m => qualifiedName c.name m.name

/-- Calls that an instruction adds to the graph. -/
def instrCalls (classes : List ClassInfo) (hierarchy : Hierarchy) (caller : String)
    (instr : BodyInstr) : List Call :=
  match instr.target with
  | some (.ok t) => (callees classes hierarchy t).map fun callee => ⟨caller, callee, instr.offset⟩
  | _ => []

/-- Calls that a method adds to the graph; one without a body adds none. -/
def methodCalls (body : MethodInfo → Logged (Except AnalysisError Body))
    (classes : List ClassInfo) (hierarchy : Hierarchy) (declared : ClassInfo × MethodInfo) :
    List Call :=
  match (body declared.2).value with
  | .error _ => []
  | .ok b =>
    b.instrs.flatMap
      (instrCalls classes hierarchy (qualifiedName declared.1.name declared.2.name))

/-- Classes that are part of the program. -/
def present (classes : List ClassInfo) : List ClassInfo := classes.filter fun c => !c.phantom

@[simp] theorem mem_present {classes : List ClassInfo} {c : ClassInfo} :
    c ∈ present classes ↔ c ∈ classes ∧ c.phantom = false := by
  simp [present]

/-- Calls of all methods of the program, in order. -/
def callsOf (classes : List ClassInfo) (body : MethodInfo → Logged (Except AnalysisError Body)) :
    List Call :=
  ((present classes).flatMap fun c => c.methods.map fun m => (c, m)).flatMap
    (methodCalls body (present classes) (Hierarchy.ofClasses (present classes)))

/-! ## Construction, step by step -/

theorem foldl_intern_app (names : List String) :
    names.foldl (fun g name => (g.intern name .app).2) (⟨[], []⟩ : CallGraph) =
      ⟨(distinct names).map fun name => ⟨name, .app⟩, []⟩ := by
  induction names using List.reverseRecOn with
  | nil => rfl
  | append_singleton names name ih =>
    rw [List.foldl_append, List.foldl_cons, List.foldl_nil, ih, distinct_append_singleton]
    have known : ((distinct names).map fun name => (⟨name, .app⟩ : Node)).map (·.name) =
        distinct names := by
      rw [List.map_map]
      exact List.map_id _
    by_cases h : name ∈ names
    · rw [if_pos h, (intern_known .app (by rw [known]; exact mem_distinct.mpr h)).1]
    · rw [if_neg h, intern_new .app (by rw [known, mem_distinct]; exact h)]
      simp

theorem represents_ofClasses (classes : List ClassInfo) :
    (ofClasses classes).Represents (declaredNames classes) [] := by
  rw [ofClasses, foldl_intern_app, ← declaredNames]
  refine ⟨?nodes, List.Pairwise.nil, by simp, by simp [HasCall]⟩
  simp only [List.map_nil, List.append_nil]
  refine List.map_congr_left fun name hname => ?_
  rw [nodeOf, if_pos (mem_distinct.mp hname)]

section

variable {classes : List ClassInfo} {hierarchy : Hierarchy} {declared : List String}
  {body : MethodInfo → Logged (Except AnalysisError Body)}

theorem Represents.addInstr {g : CallGraph} {calls : List Call}
    (h : g.Represents declared calls) {source : Nat} {caller : String} {m : MethodInfo}
    (hs : g.nameAt source = some caller) (instr : BodyInstr) :
    (addInstr classes hierarchy m source g instr).value.Represents declared
        (calls ++ instrCalls classes hierarchy caller instr) ∧
      (CallGraph.addInstr classes hierarchy m source g instr).value.nameAt source = some caller := by
  rw [CallGraph.addInstr, instrCalls]
  match instr.target with
  | none => simpa using ⟨h, hs⟩
  | some (.error e) => simpa using ⟨h, hs⟩
  | some (.ok t) =>
    simp only [Logged.value_pure]
    rw [List.map_eq_flatMap]
    -- the caller's node keeps its position while callees are added
    refine foldl_outputs (P := fun (g : CallGraph) calls => g.Represents declared calls ∧
      g.nameAt source = some caller) ⟨h, hs⟩ ?_
    rintro g calls callee - ⟨h, hs⟩
    obtain ⟨added, kept⟩ := h.addCall ⟨caller, callee, instr.offset⟩ hs
    exact ⟨added, nameAt_of_prefix kept hs⟩

theorem Represents.addMethod {g : CallGraph} {calls : List Call}
    (h : g.Represents declared calls) {c : ClassInfo} {m : MethodInfo}
    (hd : qualifiedName c.name m.name ∈ declared) :
    (addMethod body classes hierarchy g (c, m)).value.Represents declared
      (calls ++ methodCalls body classes hierarchy (c, m)) := by
  simp only [CallGraph.addMethod, methodCalls, Logged.value_bind]
  cases (body m).value with
  | error e => simpa using h
  | ok b =>
    have known : qualifiedName c.name m.name ∈ g.nodes.map (·.name) := by
      rw [h.names_eq]
      simp [hd]
    obtain ⟨hg, hs⟩ := intern_known .app known
    simp only [Logged.value_foldlM, hg]
    refine (foldl_outputs (P := fun (g' : CallGraph) calls => g'.Represents declared calls ∧
      g'.nameAt (g.intern (qualifiedName c.name m.name) .app).1 =
        some (qualifiedName c.name m.name)) ⟨h, hs⟩ ?_).1
    rintro g' calls instr - ⟨h, hs⟩
    exact h.addInstr hs instr

/-- **The built graph**: it represents the calls of the program. -/
theorem represents_build (classes : List ClassInfo)
    (body : MethodInfo → Logged (Except AnalysisError Body)) :
    (build classes body).value.Represents (declaredNames (present classes))
      (callsOf classes body) := by
  rw [build, Logged.value_foldlM, ← present, callsOf]
  refine foldl_outputs (P := fun (g : CallGraph) calls => g.Represents _ calls)
    (represents_ofClasses _) ?_
  rintro g calls ⟨c, m⟩ hcm h
  refine h.addMethod ?_
  simp only [List.mem_flatMap, List.mem_map, Prod.mk.injEq] at hcm
  obtain ⟨c', hc, m', hm, rfl, rfl⟩ := hcm
  exact List.mem_flatMap.mpr ⟨c', hc, List.mem_map_of_mem hm⟩

end

/-! ## The calls of a program -/

/-- A method of the program has a call instruction at the offset, with a known target. -/
def CallsAt (classes : List ClassInfo) (body : MethodInfo → Logged (Except AnalysisError Body))
    (caller : String) (t : CallTarget) (offset : Nat) : Prop :=
  ∃ c ∈ classes, c.phantom = false ∧ ∃ m ∈ c.methods, qualifiedName c.name m.name = caller ∧
    ∃ b, (body m).value = .ok b ∧
      ∃ instr ∈ b.instrs, instr.offset = offset ∧ instr.target = some (.ok t)

theorem mem_instrCalls_iff {classes : List ClassInfo} {hierarchy : Hierarchy} {name : String}
    {instr : BodyInstr} {call : Call} :
    call ∈ instrCalls classes hierarchy name instr ↔
      ∃ t, instr.target = some (.ok t) ∧ call.callee ∈ callees classes hierarchy t ∧
        call.caller = name ∧ call.offset = instr.offset := by
  rw [instrCalls]
  match instr.target with
  | none => simp
  | some (.error e) => simp
  | some (.ok t) =>
    simp only [List.mem_map, Option.some.injEq, Except.ok.injEq]
    constructor
    · rintro ⟨callee, hc, rfl⟩
      exact ⟨t, rfl, hc, rfl, rfl⟩
    · rintro ⟨_, rfl, hc, rfl, ho⟩
      exact ⟨call.callee, hc, by rw [← ho]⟩

theorem mem_methodCalls_iff {body : MethodInfo → Logged (Except AnalysisError Body)}
    {classes : List ClassInfo} {hierarchy : Hierarchy} {c : ClassInfo} {m : MethodInfo}
    {call : Call} :
    call ∈ methodCalls body classes hierarchy (c, m) ↔
      ∃ b, (body m).value = .ok b ∧
        ∃ instr ∈ b.instrs,
          call ∈ instrCalls classes hierarchy (qualifiedName c.name m.name) instr := by
  rw [methodCalls]
  cases (body m).value with
  | error e => simp
  | ok b => simp

/-- A call of the program goes from the method of a call instruction to a possible callee of
its target. -/
theorem mem_callsOf_iff {classes : List ClassInfo}
    {body : MethodInfo → Logged (Except AnalysisError Body)} {call : Call} :
    call ∈ callsOf classes body ↔
      ∃ t, CallsAt classes body call.caller t call.offset ∧
        call.callee ∈
          callees (present classes) (Hierarchy.ofClasses (present classes)) t := by
  simp only [callsOf, List.mem_flatMap, List.mem_map, Prod.exists, Prod.mk.injEq,
    mem_methodCalls_iff, mem_instrCalls_iff, mem_present]
  constructor
  · rintro ⟨c, m, ⟨c', ⟨hc, hp⟩, m', hm, rfl, rfl⟩, b, hb, instr, hi, t, ht, hcallee, hcaller, ho⟩
    exact ⟨t, ⟨c', hc, hp, m', hm, hcaller.symm, b, hb, instr, hi, ho.symm, ht⟩, hcallee⟩
  · rintro ⟨t, ⟨c, hc, hp, m, hm, hcaller, b, hb, instr, hi, ho, ht⟩, hcallee⟩
    exact ⟨c, m, ⟨c, ⟨hc, hp⟩, m, hm, rfl, rfl⟩, b, hb, instr, hi, t, ht, hcallee,
      hcaller.symm, ho.symm⟩

theorem mem_declaredNames_iff {classes : List ClassInfo} {name : String} :
    name ∈ declaredNames (present classes) ↔
      ∃ c ∈ classes, c.phantom = false ∧ ∃ m ∈ c.methods, name = qualifiedName c.name m.name := by
  simp only [declaredNames, List.mem_flatMap, List.mem_map, mem_present, and_assoc,
    eq_comm (a := name)]

end PermissionAudit.CallGraph
