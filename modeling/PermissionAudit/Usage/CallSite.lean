import PermissionAudit.Program.Basic

/-!
Places in a program where a guarded call is made.
-/

namespace PermissionAudit

structure CallSite where
  /-- The name of the called method, by which usage is reported. -/
  apiName : String
  /-- The called class and method. -/
  api : String
  caller : String
  instr : InstrRef
deriving DecidableEq

namespace CallSite

/-- What tells call sites apart: the caller and the instruction. -/
def place (s : CallSite) : String × InstrRef := (s.caller, s.instr)

/-- Sites are ordered by caller, then by method, then by offset. -/
def order (s t : CallSite) : Ordering :=
  (compare s.caller t.caller).then
    ((compare s.instr.method t.instr.method).then (compare s.instr.offset t.instr.offset))

end CallSite

end PermissionAudit
