import PermissionAudit.Dex.File

/-!
Method code: register counts and the instructions, decoded in one sweep.
-/

namespace PermissionAudit

/-- Decoded code of a method. -/
structure Code where
  registers : Nat
  ins : Nat
  outs : Nat
  instrs : List Located
deriving DecidableEq

namespace Code

/-- The instruction that starts at an address. -/
def at? (code : Code) (addr : Address) : Option Located :=
  code.instrs.find? fun l => l.addr = addr

/-- Size of the fixed part of a code item, in bytes. -/
def fixedSize : Nat := 16

/-- Register counts and units of a code item. -/
def readUnits (b : Bytes) : Except ReadFault (Nat × Nat × Nat × List UInt16) :=
  let count := Bytes.u32At b 12
  if b.length < fixedSize ∨ b.length < fixedSize + 2 * count then
    .error .endOfInput
  else
    .ok (Bytes.u16At b 0, Bytes.u16At b 2, Bytes.u16At b 4,
      Bytes.units ((b.drop fixedSize).take (2 * count)))

end Code

namespace Dex

/-- The code at an offset of the file. -/
def codeAt (b : Bytes) (offset : Nat) : Except Error Code := do
  let rest ← locate b offset .code
  match Code.readUnits rest with
  | .error fault => throw (.malformed fault)
  | .ok (registers, ins, outs, units) =>
    match Instruction.sweep units with
    | .error fault => throw (.instruction fault)
    | .ok instrs => return ⟨registers, ins, outs, instrs⟩

/-- The code of a method, if it has some. -/
def code (dex : Dex) (method : EncodedMethod) : Except Error (Option Code) :=
  match method.codeOffset with
  | none => .ok none
  | some offset => (codeAt dex.raw offset).map some

end Dex

end PermissionAudit
