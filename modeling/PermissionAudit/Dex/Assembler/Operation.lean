import PermissionAudit.Dex.Instruction.Basic

/-!
Operations that the assembler can encode. Registers and literals are cut to the
bits their layout has.
-/

namespace PermissionAudit.Assembler

/-- Calls with their arguments in a list. -/
inductive ListInvoke where
  | virtual
  | super
  | direct
  | static
  | interface
  | custom
deriving DecidableEq

def ListInvoke.opcode : ListInvoke → Nat
  | .virtual => 0x6e
  | .super => 0x6f
  | .direct => 0x70
  | .static => 0x71
  | .interface => 0x72
  | .custom => 0xfc

inductive Operation where
  | nop
  | returnVoid
  | returnObject (r : UInt8)
  | throwObject (r : UInt8)
  | const4 (r : UInt8) (value : Int8)
  | constString (r : UInt8) (index : UInt32)
  | newInstance (r : UInt8) (index : UInt32)
  | moveResultObject (r : UInt8)
  | sgetObject (r : UInt8) (index : UInt32)
  | goto (distance : Int8)
  | ifEqz (r : UInt8) (distance : Int16)
  | packedSwitch (r : UInt8) (distance : Int32)
  | packedSwitchPayload (firstKey : Int32) (targets : List Int32)
  | invoke (kind : ListInvoke) (index : UInt32) (args : List UInt8)
  | invokeVirtualRange (index : UInt32) (first : UInt16) (count : UInt8)
deriving DecidableEq

namespace Operation

/-- A first unit: the opcode in the low byte, `hi` in the high one. -/
def firstUnit (opcode hi : Nat) : UInt16 := UInt16.ofNat (hi * 256 + opcode)

/-- The low `bits` bits of a signed number. -/
def lowBits (bits : Nat) (i : Int) : Nat := (i % (Nat.pow 2 bits : Nat)).toNat

/-- A signed number in two units, low half first. -/
def wideUnits (i : Int32) : List UInt16 :=
  let n := lowBits 32 i.toInt
  [UInt16.ofNat n, UInt16.ofNat (n / 65536)]

/-- Digits of 4 bits, from the low end on. -/
def packNibbles : List UInt8 → Nat
  | [] => 0
  | r :: rest => r.toNat % 16 + 16 * packNibbles rest

/-- A call with an argument list. The count is the top digit of the first unit and the fifth
register the digit below it; the other registers are in the last unit. -/
def invokeUnits (opcode : Nat) (index : UInt32) (args : List UInt8) : List UInt16 :=
  let fifth := if args.length = 5 then (args[4]?.getD 0).toNat else 0
  [UInt16.ofNat ((args.length * 4096) ||| (fifth * 256) ||| opcode),
    UInt16.ofNat index.toNat, UInt16.ofNat (packNibbles (args.take 4))]

def encode : Operation → List UInt16
  | .nop => [0x0000]
  | .returnVoid => [0x000e]
  | .returnObject r => [firstUnit 0x11 r.toNat]
  | .throwObject r => [firstUnit 0x27 r.toNat]
  | .const4 r value => [firstUnit 0x12 (lowBits 4 value.toInt * 16 + r.toNat % 16)]
  | .constString r index => [firstUnit 0x1a r.toNat, UInt16.ofNat index.toNat]
  | .newInstance r index => [firstUnit 0x22 r.toNat, UInt16.ofNat index.toNat]
  | .moveResultObject r => [firstUnit 0x0c r.toNat]
  | .sgetObject r index => [firstUnit 0x62 r.toNat, UInt16.ofNat index.toNat]
  | .goto distance => [firstUnit 0x28 (lowBits 8 distance.toInt)]
  | .ifEqz r distance => [firstUnit 0x38 r.toNat, UInt16.ofNat (lowBits 16 distance.toInt)]
  | .packedSwitch r distance => firstUnit 0x2b r.toNat :: wideUnits distance
  | .packedSwitchPayload firstKey targets =>
    0x0100 :: UInt16.ofNat targets.length :: (firstKey :: targets).flatMap wideUnits
  | .invoke kind index args => invokeUnits kind.opcode index args
  | .invokeVirtualRange index first count =>
    [firstUnit 0x74 count.toNat, UInt16.ofNat index.toNat, first]

end Operation

end PermissionAudit.Assembler
