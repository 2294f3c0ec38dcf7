/-!
Names of the files that an analysis writes.
-/

namespace PermissionAudit.FileName

/-- The file of the usage report. -/
def usage : String := "sensitive_api_usage.txt"

/-- Characters that a file name should not have. -/
def isReserved (c : Char) : Bool :=
  ['<', '>', ':', '"', '/', '\\', '|', '?', '*'].contains c

/-- A method name as part of a file name. Constructors have names of their own. -/
def sanitize (methodName : String) : String :=
  if methodName = "<init>" then "constructor"
  else if methodName = "<clinit>" then "static_initializer"
  else String.ofList (methodName.toList.map fun c => if isReserved c then '_' else c)

/-- The file of the flow graph of a method. -/
def flowGraph (simpleClassName methodName : String) : String :=
  simpleClassName ++ "_" ++ sanitize methodName ++ ".dot"

end PermissionAudit.FileName
