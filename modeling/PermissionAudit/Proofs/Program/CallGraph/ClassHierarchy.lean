import PermissionAudit.Program
import PermissionAudit.Proofs.Program.CallGraph.Built
import PermissionAudit.Proofs.Program.Hierarchy

/-!
The call graph is class hierarchy analysis. `MayCall` gives the analysis by two
rules: a call may run the method it names and, when it dispatches dynamically,
every method of that name that a class below the named one declares. The graph
has an edge with an offset exactly where the rules have a call.
-/

namespace PermissionAudit.CallGraph

/-- One step down the hierarchy: a class of the program names the parent, which itself need not
be a class of the program. -/
def ChildOf (classes : List ClassInfo) (parent child : String) : Prop :=
  ∃ c ∈ classes, c.phantom = false ∧ c.name = child ∧
    (c.superclass = some parent ∨ parent ∈ c.interfaces)

/-- Which methods a method may call, and from which offset. -/
inductive MayCall (classes : List ClassInfo)
    (body : MethodInfo → Logged (Except AnalysisError Body)) (caller : String) :
    String → Nat → Prop where
  /-- A call may run the method that it names. -/
  | named {t : CallTarget} {offset : Nat} (call : CallsAt classes body caller t offset) :
      MayCall classes body caller (qualifiedName t.className t.methodName) offset
  /-- A dynamic call may run a method of the same name declared below. -/
  | overriding {t : CallTarget} {offset : Nat} {s : ClassInfo}
      (call : CallsAt classes body caller t offset)
      (dynamic : t.dispatch ∈ [.virtual, .super, .interface])
      (present : s ∈ classes ∧ s.phantom = false)
      (declares : ∃ m ∈ s.methods, m.name = t.methodName)
      (below : Relation.TransGen (ChildOf classes) t.className s.name) :
      MayCall classes body caller (qualifiedName s.name t.methodName) offset

/-! ## Possible callees of one call -/

theorem below_present_eq_childOf (classes : List ClassInfo) :
    (Hierarchy.ofClasses (present classes)).Below = ChildOf classes := by
  funext parent child
  refine propext (Hierarchy.below_ofClasses_iff.trans ?_)
  simp only [ChildOf, mem_present, ClassInfo.parents, List.mem_append, Option.mem_toList,
    and_assoc]

theorem isDynamic_iff {d : Dispatch} : d.isDynamic ↔ d ∈ [.virtual, .super, .interface] := by
  cases d <;> decide

/-- With class names distinct, the class found for a name is the only one. -/
theorem declares_iff {classes : List ClassInfo} (hn : (classes.map (·.name)).Nodup)
    {className methodName : String} :
    declares classes className methodName ↔
      ∃ c ∈ classes, c.name = className ∧ ∃ m ∈ c.methods, m.name = methodName := by
  have unique {c d : ClassInfo} (hc : c ∈ classes) (hd : d ∈ classes) (heq : c.name = d.name) :
      c = d := List.inj_on_of_nodup_map hn hc hd heq
  rw [declares]
  cases hf : classes.reverse.find? (·.name = className) with
  | none =>
    have hno := List.find?_eq_none.mp hf
    refine ⟨fun h => by simp at h, ?_⟩
    rintro ⟨c, hc, hname, -⟩
    exact absurd (decide_eq_true hname) (hno c (List.mem_reverse.mpr hc))
  | some c =>
    have hc : c ∈ classes := List.mem_reverse.mp (List.mem_of_find?_eq_some hf)
    have hname : c.name = className := by simpa using List.find?_some hf
    simp only [List.any_eq_true, decide_eq_true_eq]
    constructor
    · intro hm
      exact ⟨c, hc, hname, hm⟩
    · rintro ⟨d, hd, hdname, hm⟩
      rw [unique hc hd (hname.trans hdname.symm)]
      exact hm

theorem api_mem_callees (classes : List ClassInfo) (hierarchy : Hierarchy) (t : CallTarget) :
    t.api ∈ callees classes hierarchy t := by
  simp [callees]

theorem mem_callees_iff {classes : List ClassInfo}
    (hn : ((present classes).map (·.name)).Nodup) {t : CallTarget} {callee : String} :
    callee ∈ callees (present classes) (Hierarchy.ofClasses (present classes)) t ↔
      callee = t.api ∨
        (t.dispatch ∈ [.virtual, .super, .interface] ∧ ∃ s ∈ classes, s.phantom = false ∧
          (∃ m ∈ s.methods, m.name = t.methodName) ∧
          Relation.TransGen (ChildOf classes) t.className s.name ∧
          callee = qualifiedName s.name t.methodName) := by
  rw [callees, List.mem_cons]
  refine or_congr Iff.rfl ?_
  rw [← isDynamic_iff]
  by_cases hd : t.dispatch.isDynamic
  · rw [if_pos hd]
    simp only [hd, true_and, List.mem_map, List.mem_filter, Hierarchy.mem_descendants_iff,
      below_present_eq_childOf]
    constructor
    · rintro ⟨name, ⟨path, hdecl⟩, rfl⟩
      obtain ⟨s, hs, rfl, hm⟩ := (declares_iff hn).mp hdecl
      obtain ⟨hs, hp⟩ := mem_present.mp hs
      exact ⟨s, hs, hp, hm, path, rfl⟩
    · rintro ⟨s, hs, hp, hm, path, rfl⟩
      exact ⟨s.name, ⟨path, (declares_iff hn).mpr ⟨s, mem_present.mpr ⟨hs, hp⟩, rfl, hm⟩⟩, rfl⟩
  · simp [hd]

/-- The calls of a program are those that the two rules give. -/
theorem mem_callsOf_iff_mayCall {classes : List ClassInfo}
    (hn : ((present classes).map (·.name)).Nodup)
    {body : MethodInfo → Logged (Except AnalysisError Body)} {caller callee : String}
    {offset : Nat} :
    ⟨caller, callee, offset⟩ ∈ callsOf classes body ↔
      MayCall classes body caller callee offset := by
  simp only [mem_callsOf_iff, mem_callees_iff hn]
  constructor
  · rintro ⟨t, call, rfl | ⟨dynamic, s, hs, hp, hm, path, rfl⟩⟩
    · exact .named call
    · exact .overriding call dynamic ⟨hs, hp⟩ hm path
  · intro h
    cases h with
    | @named t _ call => exact ⟨t, call, .inl rfl⟩
    | @overriding t _ s call dynamic present declares below =>
      exact ⟨t, call, .inr ⟨dynamic, s, present.1, present.2, declares, below, rfl⟩⟩

/-! ## The graph of a program -/

/-- **Class hierarchy analysis.** The graph can be built when the classes can be listed; its
nodes are the declared methods and the named targets, with one edge at most between two nodes,
and its calls are those of the two rules. -/
theorem ofProgram_class_hierarchy {p : Program} {classes : List ClassInfo}
    (hc : p.classes = .ok classes) (hn : (classes.map (·.name)).Nodup) :
    ∃ g, (ofProgram p).value = .ok g ∧
      (g.nodes.map (·.name)).Nodup ∧
      (∀ node ∈ g.nodes, node.status = .app ↔
        ∃ c ∈ classes, c.phantom = false ∧ ∃ m ∈ c.methods,
          node.name = qualifiedName c.name m.name) ∧
      (∀ c ∈ classes, c.phantom = false → ∀ m ∈ c.methods,
        ⟨qualifiedName c.name m.name, .app⟩ ∈ g.nodes) ∧
      (∀ node ∈ g.nodes, node.status ≠ .app →
        ∃ caller t offset, CallsAt classes p.body caller t offset ∧
          node.name = qualifiedName t.className t.methodName) ∧
      g.edges.Pairwise (fun e f => (e.source, e.target) ≠ (f.source, f.target)) ∧
      (∀ e ∈ g.edges, ∃ caller callee, g.nameAt e.source = some caller ∧
        g.nameAt e.target = some callee) ∧
      (∀ caller callee offset, g.HasCall caller callee offset ↔
        MayCall classes p.body caller callee offset) ∧
      (∀ caller callee, callee ∈ g.calleesOf caller ↔
        ∃ offset, MayCall classes p.body caller callee offset) := by
  have hn' : ((present classes).map (·.name)).Nodup :=
    List.Nodup.sublist (List.filter_sublist.map _) hn
  have rep := represents_build classes p.body
  refine ⟨(build classes p.body).value, by simp [ofProgram, hc], rep.names_nodup,
    ?status, ?declared, ?external, rep.edges_unique, ?ends, ?calls, ?callees⟩
  case status =>
    intro node hnode
    rw [← mem_declaredNames_iff, (rep.mem_nodes_iff.mp hnode).2]
    simp [nodeOf]
  case declared =>
    intro c hc hp m hm
    have hd : qualifiedName c.name m.name ∈ declaredNames (present classes) :=
      mem_declaredNames_iff.mpr ⟨c, hc, hp, m, hm, rfl⟩
    exact rep.mem_nodes_iff.mpr ⟨.inl hd, by simp [nodeOf, hd]⟩
  case external =>
    intro node hnode hstatus
    obtain ⟨hname, heq⟩ := rep.mem_nodes_iff.mp hnode
    have hd : node.name ∉ declaredNames (present classes) := fun hd => by
      rw [heq] at hstatus
      simp [nodeOf, hd] at hstatus
    obtain ⟨call, hcall, hcallee⟩ := hname.resolve_left hd
    obtain ⟨t, hat, hmem⟩ := mem_callsOf_iff.mp hcall
    rcases (mem_callees_iff hn').mp hmem with hapi | ⟨-, s, hs, hp, ⟨m, hm, hmn⟩, -, hq⟩
    · exact ⟨call.caller, t, call.offset, hat, hcallee.symm.trans hapi⟩
    · -- an overriding method is declared, so its node is not external
      refine absurd (mem_declaredNames_iff.mpr ⟨s, hs, hp, m, hm, ?_⟩) hd
      rw [← hcallee, hq, hmn]
  case ends =>
    intro e he
    obtain ⟨call, -, hs, ht, -⟩ := rep.edge_call e he
    exact ⟨call.caller, call.callee, hs, ht⟩
  case calls =>
    intro caller callee offset
    exact (rep.hasCall_iff caller callee offset).trans (mem_callsOf_iff_mayCall hn')
  case callees =>
    intro caller callee
    simp only [rep.mem_calleesOf_iff, mem_callsOf_iff_mayCall hn']

/-- A class that overrides a method of its superclass. -/
def overridingClass : ClassInfo :=
  ⟨"app.Derived", some "app.Base", [], false, [⟨1, "app.Derived", "run", true⟩]⟩

/-- A class with a method that calls the overridden one. -/
def callingClass : ClassInfo :=
  ⟨"app.Main", none, [], false, [⟨2, "app.Main", "start", true⟩]⟩

/-- The caller has one instruction, the other method has no body; the superclass is not known. -/
def overridingProgram : Program where
  classes := .ok [overridingClass, callingClass]
  body m :=
    if m.uid = 2 then
      pure (.ok ⟨[⟨4, pure "invoke", some (.ok ⟨"app.Base", "run", .virtual⟩)⟩], [[]], rfl,
        by simp⟩)
    else
      pure (.error .noCode)
  callGraph? := none

/-- A call through an unknown superclass has an edge to the overriding method. -/
theorem overridingProgram_hasCall :
    (([overridingClass, callingClass]).map (·.name)).Nodup ∧
      ∃ g, (ofProgram overridingProgram).value = .ok g ∧
        g.HasCall "app.Main.start" "app.Derived.run" 4 := by
  have hn : (([overridingClass, callingClass]).map (·.name)).Nodup := by decide
  have hc : overridingProgram.classes = .ok [overridingClass, callingClass] := rfl
  obtain ⟨g, hg, -, -, -, -, -, -, calls, -⟩ := ofProgram_class_hierarchy hc hn
  refine ⟨hn, g, hg, (calls ..).mpr ?_⟩
  have call : CallsAt [overridingClass, callingClass] overridingProgram.body "app.Main.start"
      ⟨"app.Base", "run", .virtual⟩ 4 :=
    ⟨callingClass, by simp, rfl, _, List.mem_singleton_self _, by decide, _, rfl,
      _, List.mem_singleton_self _, rfl, rfl⟩
  have below : ChildOf [overridingClass, callingClass] "app.Base" "app.Derived" :=
    ⟨overridingClass, by simp, rfl, rfl, .inl rfl⟩
  have target : "app.Derived.run" = qualifiedName overridingClass.name "run" := by decide
  rw [target]
  exact .overriding call (by decide) ⟨by simp, rfl⟩ ⟨_, List.mem_singleton_self _, rfl⟩
    (.single below)

end PermissionAudit.CallGraph
