import Mathlib.Data.Finset.Card
import PermissionAudit.Proofs.Sequence.FirstOccurrence
import PermissionAudit.Proofs.Usage.Report

/-!
What a ledger accepts. Two keys are in play: a site is refused if its place has been
recorded, and it is listed under its API name. The report of a run groups the sites
that were accepted, and a site that is refused leaves no trace, whatever its name.
-/

namespace PermissionAudit

/-! ## Entries -/

namespace UsageReport

variable {sites : List CallSite} {u : ApiUsage} {name : String}

theorem apiName_mem_of_mem_ofSites (h : u ∈ (ofSites sites).entries) :
    u.apiName ∈ sites.map (·.apiName) := by
  have hname := List.mem_map_of_mem (f := (·.apiName)) h
  rw [map_apiName_ofSites] at hname
  exact mem_distinct.mp hname

theorem calls_ne_nil_of_mem_ofSites (h : u ∈ (ofSites sites).entries) : u.calls ≠ [] := by
  obtain ⟨site, hsite, hname⟩ := List.mem_map.mp (apiName_mem_of_mem_ofSites h)
  have hcall : site ∈ u.calls := by
    rw [calls_of_mem_ofSites h]
    exact List.mem_filter.mpr ⟨hsite, by simpa using hname⟩
  exact List.ne_nil_of_mem hcall

/-- The entry of a name holds the sites of that name; without a site there is none. -/
theorem get?_ofSites (sites : List CallSite) (name : String) :
    (ofSites sites).get? name =
      if sites.filter (·.apiName = name) = [] then none
      else some ⟨name, sites.filter (·.apiName = name)⟩ := by
  split
  · rename_i hnone
    apply get?_eq_none_of_not_mem
    intro hmem
    obtain ⟨u, hu, rfl⟩ := List.mem_map.mp hmem
    exact calls_ne_nil_of_mem_ofSites hu ((calls_of_mem_ofSites hu).trans hnone)
  · rename_i hsome
    obtain ⟨site, hsite⟩ := List.exists_mem_of_ne_nil _ hsome
    obtain ⟨hsite, hname⟩ := List.mem_filter.mp hsite
    have listed : name ∈ distinct (sites.map (·.apiName)) :=
      mem_distinct.mpr (List.mem_map.mpr ⟨site, hsite, by simpa using hname⟩)
    exact get?_eq_some_iff.mpr ⟨List.mem_map.mpr ⟨name, listed, rfl⟩, rfl⟩

/-- The sites in the entry of a name; without an entry there are none. -/
def callsOf (report : UsageReport) (name : String) : List CallSite :=
  match report.get? name with
  | some u => u.calls
  | none => []

theorem callsOf_ofSites (sites : List CallSite) (name : String) :
    (ofSites sites).callsOf name = sites.filter (·.apiName = name) := by
  rw [callsOf, get?_ofSites]
  by_cases h : sites.filter (·.apiName = name) = []
  · rw [if_pos h, h]
  · rw [if_neg h]

theorem totalCalls_ofSites (sites : List CallSite) :
    (ofSites sites).totalCalls = sites.length :=
  (flatMap_calls_ofSites sites).length_eq

end UsageReport

/-! ## Runs -/

namespace UsageLedger

theorem value_recordLogged (l : UsageLedger) (site : CallSite) :
    (l.recordLogged site).value = l.record site := by
  rcases h : l.record site with ⟨recorded, after⟩
  cases recorded with
  | true => simp [recordLogged, h]
  | false => simp [recordLogged, h]

theorem record_fst_iff (l : UsageLedger) (site : CallSite) :
    (l.record site).1 = true ↔ site.place ∉ l.places := by
  by_cases h : site.place ∈ l.places
  · simp [record, h]
  · simp [record, h]

theorem record_refused {l : UsageLedger} {site : CallSite} (h : (l.record site).1 = false) :
    (l.record site).2 = l := by
  have known : site.place ∈ l.places := by
    by_contra hnew
    rw [(record_fst_iff l site).mpr hnew] at h
    cases h
  rw [record, if_pos known]

-- A site at a known place is refused, though its name is new.
example :
    let site : CallSite := ⟨"send", "a.B.send", "f", ⟨0, 4⟩⟩
    ((empty.record site).2.record { site with apiName := "open" }).1 = false := by
  decide

/-- A site is recorded if no site before it has its place. -/
theorem record_fst_recordAll_iff (sites : List CallSite) (site : CallSite) :
    ((empty.recordAll sites).record site).1 = true ↔ site.place ∉ sites.map CallSite.place := by
  rw [record_fst_iff, recordAll_empty, List.mem_reverse, map_distinctBy, mem_distinct]

/-- The sites of a run that the ledger reports as recorded. -/
def accepted (l : UsageLedger) : List CallSite → List CallSite
  | [] => []
  | site :: rest =>
    let later := (l.record site).2.accepted rest
    if (l.record site).1 then site :: later else later

theorem accepted_append_singleton (l : UsageLedger) (sites : List CallSite) (site : CallSite) :
    l.accepted (sites ++ [site]) =
      l.accepted sites ++ if ((l.recordAll sites).record site).1 then [site] else [] := by
  induction sites generalizing l with
  | nil => rfl
  | cons first rest ih =>
    rw [List.cons_append, accepted, accepted, ih]
    show _ = _ ++ if (((l.record first).2.recordAll rest).record site).1 then [site] else []
    by_cases h : (l.record first).1 = true
    · rw [if_pos h, if_pos h, List.cons_append]
    · rw [if_neg h, if_neg h]

/-- The accepted sites of a fresh ledger are the first ones of their places. -/
theorem accepted_empty (sites : List CallSite) :
    empty.accepted sites = distinctBy CallSite.place sites := by
  induction sites using List.reverseRecOn with
  | nil => rfl
  | append_singleton sites site ih =>
    rw [accepted_append_singleton, distinctBy_append_singleton, ih]
    by_cases h : site.place ∈ sites.map CallSite.place
    · rw [if_neg (mt (record_fst_recordAll_iff sites site).mp (not_not.mpr h)), if_pos h,
        List.append_nil]
    · rw [if_pos ((record_fst_recordAll_iff sites site).mpr h), if_neg h]

theorem report_recordAll (sites : List CallSite) :
    (empty.recordAll sites).report = .ofSites (empty.accepted sites) := by
  rw [recordAll_empty, accepted_empty]

theorem length_accepted (sites : List CallSite) :
    (empty.accepted sites).length = (sites.map CallSite.place).toFinset.card := by
  have same : (distinct (sites.map CallSite.place)).toFinset =
      (sites.map CallSite.place).toFinset := by
    ext place
    simp only [List.mem_toFinset, mem_distinct]
  rw [accepted_empty, ← List.length_map (f := CallSite.place), map_distinctBy, ← same,
    List.toFinset_card_of_nodup (nodup_distinct _)]

/-- API names of the accepted sites, in order of first acceptance. -/
theorem firstOccurrences_apiName (sites : List CallSite) :
    FirstOccurrences
      (fun i name => ∃ site, (empty.accepted sites)[i]? = some site ∧ site.apiName = name)
      ((empty.recordAll sites).report.entries.map (·.apiName)) := by
  rw [report_recordAll, UsageReport.map_apiName_ofSites, ← List.filterMap_eq_map]
  refine (firstOccurrences_filterMap _ _).congr fun i name => ?_
  simp only [GivenAt, Function.comp_apply, Option.some.injEq]

/-- **A report groups what was accepted.** On a fresh ledger a site is recorded if no earlier one
has its caller and instruction, and one that is not recorded changes nothing. The report has one
entry for each API name of the accepted sites, in order of first acceptance, with the accepted
sites of that name in their order. The map of positions leads from each of these names to its
entry and from no other name anywhere, so that an entry is found by its name. The number of calls
is the number of different pairs of a caller and an instruction. -/
theorem report_groups_accepted (sites : List CallSite) :
    let l := empty.recordAll sites
    let accepted := empty.accepted sites
    (∀ site, (l.recordLogged site).value = l.record site ∧
        ((l.record site).1 = true ↔
          ∀ s ∈ sites, (s.caller, s.instr) ≠ (site.caller, site.instr)) ∧
        ((l.record site).1 = false → (l.record site).2 = l)) ∧
      FirstOccurrences (fun i name => ∃ site, accepted[i]? = some site ∧ site.apiName = name)
        (l.report.entries.map (·.apiName)) ∧
      (∀ name i, l.report.positions.get? name = some i ↔
        (l.report.entries.map (·.apiName))[i]? = some name) ∧
      (∀ u ∈ l.report.entries,
        u.calls = accepted.filter (·.apiName = u.apiName) ∧ u.calls ≠ [] ∧
          l.report.get? u.apiName = some u) ∧
      (∀ name, name ∉ l.report.entries.map (·.apiName) → l.report.get? name = none) ∧
      l.report.totalCalls = (sites.map fun s => (s.caller, s.instr)).toFinset.card := by
  intro l accepted
  have report : l.report = .ofSites accepted := report_recordAll sites
  refine ⟨fun site => ⟨value_recordLogged l site, ?_, record_refused⟩,
    firstOccurrences_apiName sites, l.report.positions_get?_iff, ?_,
    fun name => UsageReport.get?_eq_none_of_not_mem, ?_⟩
  · rw [record_fst_recordAll_iff, List.mem_map, not_exists]
    exact forall_congr' fun s => not_and
  · intro u hu
    rw [report] at hu ⊢
    exact ⟨UsageReport.calls_of_mem_ofSites hu, UsageReport.calls_ne_nil_of_mem_ofSites hu,
      UsageReport.get?_eq_some_iff.mpr ⟨hu, rfl⟩⟩
  · rw [report, UsageReport.totalCalls_ofSites]
    exact length_accepted sites

end UsageLedger

end PermissionAudit
