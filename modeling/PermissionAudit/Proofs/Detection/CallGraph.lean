import PermissionAudit.Proofs.Detection.Sites
import PermissionAudit.Proofs.Program.CallGraph.ClassHierarchy

/-!
Detection and the call graph agree. They walk the program separately, one with a
selection and an index, the other with its own tables of nodes and edges; every
site that a run reports is nevertheless an edge of the graph, from the method of
the caller to the called API, with the offset of the site.
-/

namespace PermissionAudit.Detection

theorem mem_sites_of_mem_calls {found : List CallSite} {u : ApiUsage} {site : CallSite}
    (hu : u ∈ (UsageReport.ofSites (distinctBy CallSite.place found)).entries)
    (hs : site ∈ u.calls) : site ∈ found := by
  rw [UsageReport.calls_of_mem_ofSites hu] at hs
  exact (distinctBy_sublist _ _).subset (List.mem_of_mem_filter hs)

/-- A site of the program comes from a call instruction with a known target. -/
theorem callsAt_of_mem_sites {program : Program} {index : PermissionIndex}
    {selection : Selection} {classes : List ClassInfo} {site : CallSite}
    (h : site ∈ sites program index selection classes) :
    ∃ c ∈ classes, ∃ m ∈ c.methods, ∃ t,
      CallGraph.CallsAt classes program.body (qualifiedName c.name m.name) t site.instr.offset ∧
        site = CallSite.ofTarget m site.instr.offset t := by
  simp only [sites, List.mem_flatMap] at h
  obtain ⟨m, ⟨c, hc, hm⟩, hs⟩ := h
  obtain ⟨hp, -, hm, -⟩ := mem_selectedMethods.mp hm
  obtain ⟨b, hb, instr, hi, hsite⟩ := mem_methodSites.mp hs
  obtain ⟨t, ht, -, rfl⟩ := site?_eq_some_iff.mp hsite
  exact ⟨c, hc, m, hm, t, ⟨c, hc, hp, m, hm, rfl, b, hb, instr, hi, rfl, ht⟩, rfl⟩

/-- **Agreement.** In a program whose methods name their classes, every reported site is a call
of the graph: its caller is a declared method, and whatever name stands before the parentheses
of the caller has an edge to the API with the offset of the site. -/
theorem run_sites_hasCall {σ : Type} {program : Program} {classes : List ClassInfo}
    (hc : program.classes = .ok classes)
    (hd : ∀ c ∈ classes, ∀ m ∈ c.methods, m.className = c.name) (config : Config σ) (sink : σ) :
    ∃ outcome last g, (run program config sink).value = (.ok outcome, last) ∧
      (CallGraph.ofProgram program).value = .ok g ∧
      ∀ u ∈ outcome.usage.entries, ∀ site ∈ u.calls,
        (∃ c ∈ classes, ∃ m ∈ c.methods,
          site.caller = qualifiedName c.name m.name ++ "()") ∧
        ∀ caller, site.caller = caller ++ "()" →
          g.HasCall caller site.api site.instr.offset ∧ site.api ∈ g.calleesOf caller := by
  obtain ⟨outcome, last, hrun, husage⟩ := run_usage hc config sink
  have rep := CallGraph.represents_build classes program.body
  refine ⟨outcome, last, (CallGraph.build classes program.body).value, hrun,
    by simp [CallGraph.ofProgram, hc], ?_⟩
  intro u hu site hs
  rw [husage] at hu
  obtain ⟨c, hc, m, hm, t, call, hsite⟩ := callsAt_of_mem_sites (mem_sites_of_mem_calls hu hs)
  have hcaller : site.caller = qualifiedName c.name m.name ++ "()" := by
    rw [hsite, ← hd c hc m hm]
    rfl
  have hapi : site.api = t.api := by rw [hsite]; rfl
  refine ⟨⟨c, hc, m, hm, hcaller⟩, fun caller heq => ?_⟩
  obtain rfl : qualifiedName c.name m.name = caller :=
    (String.append_left_inj _).mp (hcaller.symm.trans heq)
  have recorded : ⟨qualifiedName c.name m.name, site.api, site.instr.offset⟩ ∈
      CallGraph.callsOf classes program.body :=
    CallGraph.mem_callsOf_iff.mpr ⟨t, call, hapi ▸ CallGraph.api_mem_callees _ _ t⟩
  exact ⟨(rep.hasCall_iff ..).mpr recorded, rep.mem_calleesOf_iff.mpr ⟨_, recorded⟩⟩

/-- A run over the program with an overridden method, which is guarded. -/
def overridingRun : Config Unit :=
  ⟨.ofRows ["app/Base,run,app.permission.RUN"], .all, .label, none⟩

/-- The entries that it finds. -/
def overridingEntries : List ApiUsage :=
  [⟨"run", [⟨"run", "app.Base.run", "app.Main.start()", ⟨2, 4⟩⟩]⟩]

/-- The one site that is found is an edge of the graph. -/
theorem overridingProgram_site_hasCall :
    (∀ c ∈ [CallGraph.overridingClass, CallGraph.callingClass], ∀ m ∈ c.methods,
      m.className = c.name) ∧
    ∃ outcome last g,
      (run CallGraph.overridingProgram overridingRun ()).value = (.ok outcome, last) ∧
      outcome.usage.entries = overridingEntries ∧
      (CallGraph.ofProgram CallGraph.overridingProgram).value = .ok g ∧
      g.HasCall "app.Main.start" "app.Base.run" 4 := by
  have hd : ∀ c ∈ [CallGraph.overridingClass, CallGraph.callingClass], ∀ m ∈ c.methods,
      m.className = c.name := by decide
  have hc : CallGraph.overridingProgram.classes =
      .ok [CallGraph.overridingClass, CallGraph.callingClass] := rfl
  obtain ⟨outcome, last, g, hrun, hg, h⟩ := run_sites_hasCall hc hd overridingRun ()
  have hfound : (run CallGraph.overridingProgram overridingRun ()).value.1.map
      (·.usage.entries) = .ok overridingEntries := rfl
  rw [hrun] at hfound
  have hentries : outcome.usage.entries = overridingEntries := Except.ok.inj hfound
  rw [hentries] at h
  refine ⟨hd, outcome, last, g, hrun, hentries, hg, ?_⟩
  obtain ⟨-, agree⟩ := h _ (List.mem_singleton_self _) _ (List.mem_singleton_self _)
  exact (agree "app.Main.start" (by decide)).1

end PermissionAudit.Detection
