import PermissionAudit.Program.CallGraph

/-!
Programs: what an analysis asks for, and nothing about where it comes from.
-/

namespace PermissionAudit

/-- A program that can be analysed. -/
structure Program where
  /-- The classes, in a fixed order, or why they cannot be listed. -/
  classes : Except AnalysisError (List ClassInfo)
  body : MethodInfo → Logged (Except AnalysisError Body)
  /-- The call graph, when the program can have one built. -/
  callGraph? : Option (Logged (Except AnalysisError CallGraph))

/-- The call graph of a program. -/
def CallGraph.ofProgram (p : Program) : Logged (Except AnalysisError CallGraph) :=
  match p.classes with
  | .error e => pure (.error e)
  | .ok classes => .ok <$> build classes p.body

end PermissionAudit
