import PermissionAudit.Log
import PermissionAudit.Sequence.KeyMap
import PermissionAudit.Usage.CallSite

/-!
Usage of guarded calls: call sites grouped by the name of the called method.
-/

namespace PermissionAudit

/-- The call sites of one API, in order of discovery. -/
structure ApiUsage where
  apiName : String
  calls : List CallSite
deriving DecidableEq

def ApiUsage.count (u : ApiUsage) : Nat := u.calls.length

/-- The caller of every call site, repetitions kept. -/
def ApiUsage.callers (u : ApiUsage) : List String := u.calls.map (·.caller)

/-- The usage with one more call site. -/
def ApiUsage.addCall (u : ApiUsage) (site : CallSite) : ApiUsage :=
  { u with calls := u.calls ++ [site] }

/-- Entries in order of first discovery, one per API name, and the positions of the names. -/
@[ext] structure UsageReport where
  entries : List ApiUsage
  positions : KeyMap Nat
  aligned : positions.Locates entries fun u name => u.apiName = name
deriving DecidableEq

namespace UsageReport

def empty : UsageReport := ⟨[], .leaf, .nil⟩

/-- The report with an entry for an API name, and the position of that entry. An entry that is
made has no calls. -/
def entryFor (r : UsageReport) (apiName : String) : UsageReport × Nat :=
  match h : r.positions.get? apiName with
  | some position => (r, position)
  | none =>
    (⟨r.entries ++ [⟨apiName, []⟩], r.positions.insert apiName r.entries.length,
      r.aligned.push h fun _ => eq_comm⟩, r.entries.length)

/-- Adds a site to the entry of its API name. -/
def add (r : UsageReport) (site : CallSite) : UsageReport :=
  let (r, position) := r.entryFor site.apiName
  ⟨r.entries.modify position (·.addCall site), r.positions,
    r.aligned.modify position fun _ _ => .rfl⟩

def get? (r : UsageReport) (apiName : String) : Option ApiUsage := do
  let position ← r.positions.get? apiName
  r.entries[position]?

/-- The number of API names. -/
def size (r : UsageReport) : Nat := r.entries.length

def isEmpty (r : UsageReport) : Bool := r.entries.isEmpty

/-- The number of call sites. -/
def totalCalls (r : UsageReport) : Nat := (r.entries.flatMap (·.calls)).length

/-- A line `name:count:callers`. -/
def entryLine (u : ApiUsage) : String :=
  u.apiName ++ ":" ++ toString u.count ++ ":" ++ Fields.join "," u.callers ++ "\n"

/-- What is written when nothing was found. -/
def noneDetected : String := "No sensitive API calls detected in the application."

/-- The report as a document, one line per entry. -/
def text (r : UsageReport) : String :=
  if r.isEmpty then noneDetected ++ "\n" else String.join (r.entries.map entryLine)

end UsageReport

/-- A report under construction, with the places that it has recorded. -/
structure UsageLedger where
  report : UsageReport
  places : List (String × InstrRef)
deriving DecidableEq

namespace UsageLedger

def empty : UsageLedger := ⟨.empty, []⟩

/-- Records a site unless its place has been recorded, and tells whether it did. -/
def record (l : UsageLedger) (site : CallSite) : Bool × UsageLedger :=
  if site.place ∈ l.places then (false, l)
  else (true, ⟨l.report.add site, site.place :: l.places⟩)

/-- Records a site, and logs one that is already there. -/
def recordLogged (l : UsageLedger) (site : CallSite) : Logged (Bool × UsageLedger) := do
  let (recorded, l) := l.record site
  if !recorded then
    Logged.debug ("call site " ++ site.instr.text ++ " in " ++ site.caller ++ " already recorded")
  return (recorded, l)

end UsageLedger

end PermissionAudit
