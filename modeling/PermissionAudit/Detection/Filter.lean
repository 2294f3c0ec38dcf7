import PermissionAudit.Detection.Run
import PermissionAudit.Pattern.Match
import PermissionAudit.Pattern.Parse

/-!
Selections given by patterns.
-/

namespace PermissionAudit

/-- Whether a name passes a filter; without a filter every name does. -/
def passes (filter : Option Pattern) (name : String) : Bool := filter.all (·.occursIn name)

/-- Names that the patterns match; a missing pattern matches all. -/
def Selection.ofPatterns (classFilter methodFilter : Option Pattern) : Selection :=
  ⟨passes classFilter, passes methodFilter⟩

/-- Reads a filter. -/
def readFilter (text : Option String) : Except Pattern.Fault (Option Pattern) :=
  text.mapM Pattern.parse

end PermissionAudit
