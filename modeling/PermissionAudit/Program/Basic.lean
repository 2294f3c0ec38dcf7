import PermissionAudit.Log
import PermissionAudit.Program.Error
import PermissionAudit.Text.Digits
import PermissionAudit.Text.Fields

/-!
Programs as the analyses see them: classes with their methods, and bodies as
instruction sequences with a successor relation. Where the code comes from does
not show.
-/

namespace PermissionAudit

/-- An instruction of the program: a method, by number, and an offset in it. -/
structure InstrRef where
  method : Nat
  offset : Nat
deriving DecidableEq

def InstrRef.text (r : InstrRef) : String := methodUidText r.method ++ "@" ++ Digits.hex 4 r.offset

/-- How a call selects the method that runs. -/
inductive Dispatch where
  | static
  | direct
  | virtual
  | super
  | interface
  | polymorphic
deriving DecidableEq

/-- Calls whose target may be overridden in a subclass. -/
def Dispatch.isDynamic : Dispatch → Bool
  | .virtual | .super | .interface => true
  | .static | .direct | .polymorphic => false

def Dispatch.name : Dispatch → String
  | .static => "Static"
  | .direct => "Direct"
  | .virtual => "Virtual"
  | .super => "Super"
  | .interface => "Interface"
  | .polymorphic => "Polymorphic"

/-- The method a call names. -/
structure CallTarget where
  /-- The dotted name of the declaring class. -/
  className : String
  methodName : String
  dispatch : Dispatch
deriving DecidableEq

/-- The class and the method with a dot between them. -/
def qualifiedName (className methodName : String) : String := className ++ "." ++ methodName

/-- The identifier that permission tables use. -/
def CallTarget.api (t : CallTarget) : String := qualifiedName t.className t.methodName

structure MethodInfo where
  uid : Nat
  className : String
  name : String
  /-- Whether code is at hand; a body is asked for in any case. -/
  hasBody : Bool
deriving DecidableEq

/-- The name of a calling method in reports. -/
def MethodInfo.callerId (m : MethodInfo) : String := qualifiedName m.className m.name ++ "()"

structure ClassInfo where
  /-- The dotted name. -/
  name : String
  superclass : Option String
  interfaces : List String
  /-- Phantom classes stand for code that is not part of the program, and are not analysed. -/
  phantom : Bool
  methods : List MethodInfo
deriving DecidableEq

/-- What follows the last dot of a class name. -/
def simpleName (className : String) : String :=
  String.ofList (className.toList.reverse.takeWhile (· ≠ '.')).reverse

/-- The class name without its package. -/
def ClassInfo.simpleName (c : ClassInfo) : String := PermissionAudit.simpleName c.name

/-- The superclass, if there is one, then the interfaces. -/
def ClassInfo.parents (c : ClassInfo) : List String := c.superclass.toList ++ c.interfaces

/-- An instruction of a body. -/
structure BodyInstr where
  /-- Position in the body. -/
  offset : Nat
  /-- The text; writing it may log. -/
  text : Logged String
  /-- The target of a call, or why it is not known; nothing for other instructions. -/
  target : Option (Except AnalysisError CallTarget)

/-- Instructions in order, and for each the positions of its successors. -/
structure Body where
  instrs : List BodyInstr
  successors : List (List Nat)
  length_successors : successors.length = instrs.length
  successor_lt : ∀ s ∈ successors.flatten, s < instrs.length

namespace Body

/-- Makes a body when there is one successor list per instruction and every successor is an
instruction. The first successor that is not one is reported. -/
def make (instrs : List BodyInstr) (successors : List (List Nat)) : Except BodyFault Body :=
  if hl : successors.length = instrs.length then
    match hf : successors.flatten.find? (fun s => instrs.length ≤ s) with
    | some bad => .error (.successorOutOfBounds bad)
    | none =>
      .ok ⟨instrs, successors, hl, fun s hs => by
        have := List.find?_eq_none.mp hf s hs
        simpa using this⟩
  else
    .error (.lengthMismatch instrs.length successors.length)

def length (b : Body) : Nat := b.instrs.length

/-- Positions of the successors of the instruction at position `i`. -/
def successorsAt (b : Body) (i : Nat) : List Nat := b.successors[i]?.getD []

/-- The successors of the instruction at position `i`. -/
def successorInstrs (b : Body) (i : Nat) : List BodyInstr :=
  (b.successorsAt i).filterMap fun s => b.instrs[s]?

end Body

end PermissionAudit
