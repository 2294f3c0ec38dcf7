import PermissionAudit.Log
import PermissionAudit.Text.Fields
import PermissionAudit.Text.Quoted

/-!
Rows of a table with the columns `CallerClass,CallerMethod,Permission`.
-/

namespace PermissionAudit

/-- A permission and a call that it guards. -/
structure Grant where
  permission : String
  /-- The dotted class name, a dot and the method name. -/
  api : String
deriving DecidableEq

namespace Grant

/-- The identifier of a call; the class name may be separated by slashes. -/
def apiOf (className methodName : String) : String :=
  Fields.replace '/' '.' className ++ "." ++ methodName

/-- Whether a row names the columns. -/
def isHeader (row : List Char) : Bool :=
  Fields.occursIn "CallerClass".toList row && Fields.occursIn "CallerMethod".toList row

/-- Fields of a row: trimmed, and without the empty ones at the end. A field of blanks only is
not an empty one. -/
def fields (row : List Char) : List String :=
  (Fields.dropTrailing (·.isEmpty) (Fields.split ',' row)).map fun f =>
    String.ofList (Fields.trim f)

/-- The grant of a row with three fields or more. -/
def ofFields? : List String → Option Grant
  | className :: methodName :: permission :: _ => some ⟨permission, apiOf className methodName⟩
  | _ => none

/-- The grant of the row at a position, if it has one. The first row may name the columns. -/
def ofRow? (row : String) (position : Nat) : Option Grant :=
  if position = 0 ∧ isHeader row.toList then none else ofFields? (fields row.toList)

/-- What is logged about the row at a position. -/
def rowRecords (row : String) (position : Nat) : List LogRecord :=
  if position = 0 ∧ isHeader row.toList then
    [⟨.trace, "skipping header row"⟩]
  else if (ofFields? (fields row.toList)).isNone ∧ !(Fields.trim row.toList).isEmpty then
    [⟨.debug, "skipping short row " ++ toString (position + 1) ++ ": " ++ Quoted.quote row⟩]
  else
    []

end Grant

end PermissionAudit
