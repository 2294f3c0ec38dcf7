import PermissionAudit.Program
import PermissionAudit.Registry.Basic
import PermissionAudit.Sequence.Distinct

/-!
Bodies of registered methods, and the registry as a program. Switch and array
payloads are not part of a body.
-/

namespace PermissionAudit

namespace Located

/-- Targets of the switch payload that starts exactly at an address. -/
def switchTargetsAt (code : Code) (addr : Option Address) : Option (List Int) :=
  match addr with
  | none => none
  | some a => (code.at? a).bind (·.instr.switchTargets?)

/-- Addresses that may follow an instruction; nothing stands for one outside the addresses. -/
def followers (code : Code) (l : Located) : List (Option Address) :=
  let next := some l.nextAddr
  match l.instr.flow with
  | .next => [next]
  | .stop | .payload => []
  | .goto distance => [l.addr.offset distance]
  | .branch distance => [next, l.addr.offset distance]
  | .switch distance =>
    next :: ((switchTargetsAt code (l.addr.offset distance)).getD []).map l.addr.offset

/-- Whether an instruction is a switch without a payload. -/
def lacksPayload (code : Code) (l : Located) : Bool :=
  match l.instr.flow with
  | .switch distance => (switchTargetsAt code (l.addr.offset distance)).isNone
  | _ => false

/-- The position of the instruction at an address. -/
def positionOf (instrs : List Located) (addr : Option Address) : Option Nat :=
  match addr with
  | none => none
  | some a => instrs.findIdx? fun l => l.addr = a

/-- Positions of the successors of an instruction, without repetition. Followers outside the
body are dropped. -/
def successors (code : Code) (instrs : List Located) (l : Located) : List Nat :=
  distinct ((followers code l).filterMap (positionOf instrs))

/-- What is logged about the successors of an instruction. -/
def successorRecords (code : Code) (instrs : List Located) (l : Located) : List LogRecord :=
  ((followers code l).filter fun a => (positionOf instrs a).isNone).map
      (fun _ => ⟨.debug, "dropping out of body successor of " ++ l.addr.text⟩) ++
    if lacksPayload code l then [⟨.debug, "missing switch payload for " ++ l.addr.text⟩] else []

/-- The text of an instruction by names, or by numbers if a name cannot be resolved. -/
def textOrRaw (dex : Dex) (l : Located) : Logged String :=
  match l.text dex with
  | .ok text => pure text
  | .error e => do
    Logged.trace ("raw rendering at " ++ l.addr.text ++ ": " ++ e.message)
    return l.rawText

end Located

namespace Dex

/-- The class whose methods a type has: arrays share one. -/
def definerName? : Descriptor → Option String
  | .array _ _ => some "java.lang.reflect.Array"
  | .object name => some (Fields.replace '/' '.' name)
  | _ => none

/-- The target of a call of the method at an index. -/
def callTarget (dex : Dex) (index : Nat) (dispatch : Dispatch) :
    Except AnalysisError CallTarget := do
  let id ← (entry .method dex.methods index).mapError .dex
  let definer ← (dex.type id.definer).mapError .dex
  match definerName? definer with
  | none => throw (.unresolvable (.primitiveDefiner index definer))
  | some className =>
    let name ← (dex.string id.name).mapError .dex
    return ⟨className, name, dispatch⟩

end Dex

/-- How an invocation selects its method; a custom one has none to select. -/
def InvokeKind.dispatch? : InvokeKind → Option Dispatch
  | .virtual => some .virtual
  | .super => some .super
  | .direct => some .direct
  | .static => some .static
  | .interface => some .interface
  | .polymorphic => some .polymorphic
  | .custom => none

/-- The target of an instruction that is a call. -/
def Located.callTarget? (dex : Dex) (l : Located) : Option (Except AnalysisError CallTarget) :=
  l.instr.invoke?.map fun (kind, index) =>
    match kind.dispatch? with
    | some dispatch => dex.callTarget index dispatch
    | none => .error (.unresolvable (.callSite index l.addr))

namespace Registry

/-- The instructions of code that are part of its body. -/
def bodyInstrs (code : Code) : List Located := code.instrs.filter fun l => !l.instr.isPayload

/-- The body of code. -/
def bodyOfCode (dex : Dex) (code : Code) : Logged (Except AnalysisError Body) :=
  let instrs := bodyInstrs code
  let body := Body.make
    (instrs.map fun l => ⟨l.addr, l.textOrRaw dex, l.callTarget? dex⟩)
    (instrs.map (Located.successors code instrs))
  ⟨body.mapError .malformedBody, instrs.flatMap (Located.successorRecords code instrs)⟩

end Registry

/-- The body of an encoded method, decoded from its file. -/
def MethodEntry.body (entry : MethodEntry) : Logged (Except AnalysisError Body) :=
  if Dex.MethodFlags.isBodiless entry.encoded.flags then
    pure (.error .noCode)
  else
    match entry.dex.code entry.encoded with
    | .error e => pure (.error (.dex e))
    | .ok none => pure (.error .noCode)
    | .ok (some code) => Registry.bodyOfCode entry.dex code

namespace Registry

/-- The body of the method with a number. -/
def body (r : Registry) (uid : Nat) : Logged (Except AnalysisError Body) :=
  match r.entries[uid]? with
  | none => pure (.error (.methodNotFound uid))
  | some entry => entry.body

/-- The registered classes as a program. -/
def toProgram (r : Registry) : Program where
  classes := .ok r.classes
  body m := r.body m.uid
  callGraph? := some (.ok <$> CallGraph.build r.classes fun m => r.body m.uid)

end Registry

end PermissionAudit
