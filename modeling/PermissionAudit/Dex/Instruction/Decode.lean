import PermissionAudit.Dex.Instruction.Basic

/-!
Decoding of 16-bit units. `decode` reads the instruction at the front of a
unit sequence, `sweep` reads a whole method, one instruction after another.
-/

namespace PermissionAudit.Instruction

/-- Why units are not an instruction. -/
inductive Fault where
  | truncated (addr : Address)
  | unknownOpcode (opcode : Nat) (addr : Address)
  | argumentCount (count : Nat) (addr : Address)
deriving DecidableEq

/-- A number of `bits` bits read as a signed one. -/
def signExtend (bits n : Nat) : Int :=
  if n < Nat.pow 2 (bits - 1) then n else (n : Int) - (Nat.pow 2 bits : Nat)

/-- The unit at position `i`. -/
def unitAt (units : List UInt16) (i : Nat) : Nat := (units[i]?.getD 0).toNat

/-- The units at positions `i` and `i + 1` as one number, low half first. -/
def wideAt (units : List UInt16) (i : Nat) : Nat := unitAt units i + 65536 * unitAt units (i + 1)

/-- The first `count` signed numbers of two units each. -/
def wideInts : Nat → List UInt16 → List Int
  | count + 1, lo :: hi :: rest =>
    signExtend 32 (lo.toNat + 65536 * hi.toNat) :: wideInts count rest
  | _, _ => []

/-- Whether there are at least `size` units. -/
def fits (size : Nat) (units : List UInt16) : Bool := (units.take size).length = size

/-- The registers of a list form. The count is the high digit of `hi`, the fifth register its
low digit; the others are the digits of `regs` from the low end on. -/
def argumentList (hi regs : Nat) (addr : Address) : Except Fault (List Register) :=
  if 5 < hi / 16 then
    .error (.argumentCount (hi / 16) addr)
  else
    .ok ([regs % 16, regs / 16 % 16, regs / 256 % 16, regs / 4096, hi % 16].take (hi / 16))

/-- Operands of a layout. `hi` is the high byte of the first unit. -/
def operandsOf (format : Opcode.Format) (opcode hi : Nat) (units : List UInt16)
    (addr : Address) : Except Fault Operands :=
  let unit := unitAt units
  let wide := wideAt units
  let low := hi % 16
  let high := hi / 16
  match format with
  | .f10x => .ok .none
  | .f12x => .ok (.regs2 low high)
  | .f11n => .ok (.literal low (signExtend 4 high))
  | .f11x => .ok (.reg hi)
  | .f10t => .ok (.branch (signExtend 8 hi))
  | .f20t => .ok (.branch (signExtend 16 (unit 1)))
  | .f22x => .ok (.regs2 hi (unit 1))
  | .f21t => .ok (.regBranch hi (signExtend 16 (unit 1)))
  | .f21s => .ok (.literal hi (signExtend 16 (unit 1)))
  | .f21h =>
    let shift := if opcode = 0x15 then 16 else 48
    .ok (.literal hi (signExtend 16 (unit 1) * (Nat.pow 2 shift : Nat)))
  | .f21c => .ok (.regRef hi (unit 1))
  | .f23x => .ok (.regs3 hi (unit 1 % 256) (unit 1 / 256))
  | .f22b => .ok (.regsLiteral hi (unit 1 % 256) (signExtend 8 (unit 1 / 256)))
  | .f22t => .ok (.regsBranch low high (signExtend 16 (unit 1)))
  | .f22s => .ok (.regsLiteral low high (signExtend 16 (unit 1)))
  | .f22c => .ok (.regsRef low high (unit 1))
  | .f32x => .ok (.regs2 (unit 1) (unit 2))
  | .f30t => .ok (.branch (signExtend 32 (wide 1)))
  | .f31t => .ok (.regBranch hi (signExtend 32 (wide 1)))
  | .f31i => .ok (.literal hi (signExtend 32 (wide 1)))
  | .f31c => .ok (.regRef hi (wide 1))
  | .f35c => (argumentList hi (unit 2) addr).map fun args => .list args (unit 1)
  | .f3rc => .ok (.range (unit 2) hi (unit 1))
  | .f45cc => (argumentList hi (unit 2) addr).map fun args => .polyList args (unit 1) (unit 3)
  | .f4rcc => .ok (.polyRange (unit 2) hi (unit 1) (unit 3))
  | .f51l => .ok (.literal hi (signExtend 64 (wide 1 + 0x100000000 * wide 3)))

/-- Operands of a payload. Its kind is the high byte of the first unit; the second unit is a
count of entries, or the width of array elements. -/
def payloadOf (kind : Nat) (units : List UInt16) : Operands :=
  let entries := unitAt units 1
  if kind = 1 then
    .packedSwitch (signExtend 32 (wideAt units 2)) (wideInts entries (units.drop 4))
  else if kind = 2 then
    .sparseSwitch ((wideInts entries (units.drop 2)).zip
      (wideInts entries (units.drop (2 + 2 * entries))))
  else
    .fillArrayData entries (wideAt units 2)

/-- Units that a payload takes, read off its fixed part. -/
def payloadSize (kind : Nat) (units : List UInt16) : Nat :=
  let entries := unitAt units 1
  if kind = 1 then 4 + 2 * entries
  else if kind = 2 then 2 + 4 * entries
  else 4 + (entries * wideAt units 2 + 1) / 2

/-- Units before which the size of a payload is not known. -/
def payloadFixed (kind : Nat) : Nat := if kind = 3 then 4 else 2

def decodePayload (kind : Nat) (units : List UInt16) (addr : Address) :
    Except Fault Instruction :=
  if fits (payloadFixed kind) units && fits (payloadSize kind units) units then
    .ok ⟨0, payloadOf kind units⟩
  else
    .error (.truncated addr)

/-- The instruction at the front of `units`, which lies at `addr` in its method. -/
def decode (units : List UInt16) (addr : Address) : Except Fault Instruction :=
  match units with
  | [] => .error (.truncated addr)
  | first :: _ =>
    let opcode := first.toNat % 256
    let hi := first.toNat / 256
    if opcode = 0 ∧ 1 ≤ hi ∧ hi ≤ 3 then
      decodePayload hi units addr
    else
      match Opcode.describe? opcode with
      | none => .error (.unknownOpcode opcode addr)
      | some description =>
        if fits description.format.units units then
          (operandsOf description.format opcode hi units addr).map fun operands =>
            ⟨opcode, operands⟩
        else
          .error (.truncated addr)

/-- Instructions from address `addr` on. The first `skip` units belong to the instruction before
and are passed over. -/
def sweepFrom (skip : Nat) (addr : Address) :
    List UInt16 → Except Fault (List Located)
  | [] => .ok []
  | unit :: rest =>
    match skip with
    | skip + 1 => sweepFrom skip (addr + 1) rest
    | 0 => do
      let instr ← decode (unit :: rest) addr
      let later ← sweepFrom (instr.size - 1) (addr + 1) rest
      return ⟨addr, instr⟩ :: later

/-- All instructions of a method. -/
def sweep (units : List UInt16) : Except Fault (List Located) := sweepFrom 0 Address.entry units

end PermissionAudit.Instruction
