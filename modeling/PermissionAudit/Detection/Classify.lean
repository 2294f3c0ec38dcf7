import PermissionAudit.Permission.Index
import PermissionAudit.Usage.Report

/-!
Which instructions are guarded calls.
-/

namespace PermissionAudit

/-- The call site of a guarded call. -/
def CallSite.ofTarget (caller : MethodInfo) (offset : Nat) (t : CallTarget) : CallSite :=
  ⟨t.methodName, t.api, caller.callerId, ⟨caller.uid, offset⟩⟩

/-- The call site of an instruction, if it is a call with a known and guarded target. -/
def BodyInstr.site? (instr : BodyInstr) (caller : MethodInfo) (index : PermissionIndex) :
    Option CallSite :=
  match instr.target with
  | some (.ok t) =>
    if index.isSensitive t.api then some (CallSite.ofTarget caller instr.offset t) else none
  | _ => none

/-- What is logged when an instruction is classified: calls with an unknown target, and
guarded calls. -/
def BodyInstr.siteRecords (instr : BodyInstr) (caller : MethodInfo) (index : PermissionIndex) :
    List LogRecord :=
  match instr.target with
  | none => []
  | some (.error e) =>
    [⟨.warn, "Error analyzing method call in " ++ caller.callerId ++ ": " ++ e.message⟩]
  | some (.ok t) =>
    if index.isSensitive t.api then
      [⟨.trace, "sensitive call to " ++ t.api ++ " (" ++ t.dispatch.name ++ ") in " ++
        caller.callerId⟩]
    else
      []

/-- Classifies an instruction of `caller`. -/
def BodyInstr.classify (instr : BodyInstr) (caller : MethodInfo) (index : PermissionIndex) :
    Logged (Option CallSite) :=
  ⟨instr.site? caller index, instr.siteRecords caller index⟩

end PermissionAudit
