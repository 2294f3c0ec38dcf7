import PermissionAudit.Dex.Address
import PermissionAudit.Dex.Opcode

/-!
Decoded instructions: an opcode with its operands, and what can be read off
them, namely the size, the effect on control flow and the call they make.
-/

namespace PermissionAudit

/-- A register number. -/
abbrev Register := Nat

/-- Operands by shape. Branch distances are in units and relative to the instruction; the
targets of a switch payload are relative to the switch. -/
inductive Operands where
  | none
  | reg (a : Register)
  | regs2 (a b : Register)
  | regs3 (a b c : Register)
  | literal (a : Register) (value : Int)
  | regsLiteral (a b : Register) (value : Int)
  | branch (distance : Int)
  | regBranch (a : Register) (distance : Int)
  | regsBranch (a b : Register) (distance : Int)
  | regRef (a : Register) (index : Nat)
  | regsRef (a b : Register) (index : Nat)
  | list (args : List Register) (index : Nat)
  | range (first : Register) (count : Nat) (index : Nat)
  | polyList (args : List Register) (method proto : Nat)
  | polyRange (first : Register) (count : Nat) (method proto : Nat)
  | packedSwitch (firstKey : Int) (targets : List Int)
  | sparseSwitch (cases : List (Int × Int))
  | fillArrayData (elementWidth count : Nat)
deriving DecidableEq

/-- Data placed among the instructions and never executed. -/
def Operands.isPayload : Operands → Bool
  | .packedSwitch _ _ | .sparseSwitch _ | .fillArrayData _ _ => true
  | _ => false

/-- An instruction, or a payload under opcode zero. -/
structure Instruction where
  opcode : Nat
  operands : Operands
deriving DecidableEq

/-- Effect on control flow; exceptions are left out. -/
inductive Flow where
  /-- On to the next instruction. -/
  | next
  /-- Out of the method. -/
  | stop
  /-- To the target. -/
  | goto (distance : Int)
  /-- To the target or on to the next instruction. -/
  | branch (distance : Int)
  /-- To one of the targets of the payload at the given distance, or on. -/
  | switch (distance : Int)
  /-- Not executed. -/
  | payload
deriving DecidableEq

/-- How a call instruction chooses the method. -/
inductive InvokeKind where
  | virtual
  | super
  | direct
  | static
  | interface
  | polymorphic
  | custom
deriving DecidableEq

namespace Instruction

def isPayload (i : Instruction) : Bool := i.operands.isPayload

/-- Size in units. -/
def size (i : Instruction) : Nat :=
  match i.operands with
  | .packedSwitch _ targets => 4 + 2 * targets.length
  | .sparseSwitch cases => 2 + 4 * cases.length
  | .fillArrayData elementWidth count => 4 + (elementWidth * count + 1) / 2
  | _ => ((Opcode.describe? i.opcode).map (·.format.units)).getD 1

theorem size_pos (i : Instruction) : 0 < i.size := by
  unfold size
  split
  · omega
  · omega
  · omega
  · cases Opcode.describe? i.opcode with
    | none => decide
    | some d => exact d.format.units_pos

def mnemonic (i : Instruction) : String :=
  match i.operands with
  | .packedSwitch _ _ => "packed-switch-payload"
  | .sparseSwitch _ => "sparse-switch-payload"
  | .fillArrayData _ _ => "fill-array-data-payload"
  | _ => ((Opcode.describe? i.opcode).map (·.mnemonic)).getD "unknown"

/-- What the index operand refers to. -/
def reference (i : Instruction) : Opcode.Reference :=
  ((Opcode.describe? i.opcode).map (·.reference)).getD .none

/-- Opcodes from `first` to `last`. -/
def opcodeIn (i : Instruction) (first last : Nat) : Bool :=
  first ≤ i.opcode && i.opcode ≤ last

def flow (i : Instruction) : Flow :=
  if i.isPayload then .payload
  else if i.opcodeIn 0x0e 0x11 || i.opcode == 0x27 then .stop
  else
    match i.operands with
    | .branch distance => if i.opcodeIn 0x28 0x2a then .goto distance else .next
    | .regBranch _ distance =>
      if i.opcodeIn 0x2b 0x2c then .switch distance
      else if i.opcodeIn 0x38 0x3d then .branch distance
      else .next
    | .regsBranch _ _ distance => if i.opcodeIn 0x32 0x37 then .branch distance else .next
    | _ => .next

/-- The kind of call an opcode makes. -/
def invokeKind? (opcode : Nat) : Option InvokeKind :=
  match opcode with
  | 0x6e | 0x74 => some .virtual
  | 0x6f | 0x75 => some .super
  | 0x70 | 0x76 => some .direct
  | 0x71 | 0x77 => some .static
  | 0x72 | 0x78 => some .interface
  | 0xfa | 0xfb => some .polymorphic
  | 0xfc | 0xfd => some .custom
  | _ => none

/-- The kind of call and the index it names: a method, or a call site for a custom call. -/
def invoke? (i : Instruction) : Option (InvokeKind × Nat) :=
  match invokeKind? i.opcode, i.operands with
  | some kind, .list _ index => some (kind, index)
  | some kind, .range _ _ index => some (kind, index)
  | some kind, .polyList _ method _ => some (kind, method)
  | some kind, .polyRange _ _ method _ => some (kind, method)
  | _, _ => none

/-- The targets of a switch payload, relative to the switch. -/
def switchTargets? (i : Instruction) : Option (List Int) :=
  match i.operands with
  | .packedSwitch _ targets => some targets
  | .sparseSwitch cases => some (cases.map (·.2))
  | _ => none

/-- The string a constant loads, by index. -/
def stringIndex? (i : Instruction) : Option Nat :=
  match i.operands with
  | .regRef _ index => if i.opcode = 0x1a ∨ i.opcode = 0x1b then some index else none
  | _ => none

end Instruction

/-- An instruction with its address. -/
structure Located where
  addr : Address
  instr : Instruction
deriving DecidableEq

/-- The address after the instruction. -/
def Located.nextAddr (l : Located) : Address := l.addr + l.instr.size

end PermissionAudit
