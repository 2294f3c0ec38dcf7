import PermissionAudit.Dex.Assembler.Operation
import PermissionAudit.Proofs.Dex.Ignored

/-!
Operations are decoded as they were written. Each is an instruction whose operands are
its arguments, as far as these fit their fields, and whatever units follow. A program
of operations is therefore swept into one instruction for each, at the address behind
the units of those before it.
-/

namespace PermissionAudit.Assembler

open Instruction (decode signExtend operandsOf argumentList unitAt wideAt wideInts sweep sweepFrom)
open Machine (IsSigned)

def ListInvoke.mnemonic : ListInvoke → String
  | .virtual => "invoke-virtual"
  | .super => "invoke-super"
  | .direct => "invoke-direct"
  | .static => "invoke-static"
  | .interface => "invoke-interface"
  | .custom => "invoke-custom"

namespace Operation

/-! ## Meaning -/

/-- Whether the arguments fit the fields they are written to. -/
def inRange : Operation → Bool
  | .const4 r value => r.toNat < 16 && -8 ≤ value.toInt && value.toInt ≤ 7
  | .constString _ index | .newInstance _ index | .sgetObject _ index
  | .invokeVirtualRange index _ _ => index.toNat < 65536
  | .packedSwitchPayload _ targets => targets.length ≤ 65535
  | .invoke _ index args => index.toNat < 65536 && args.length ≤ 5 && args.all (·.toNat < 16)
  | _ => true

/-- How the instruction is written. -/
def mnemonic : Operation → String
  | .nop => "nop"
  | .returnVoid => "return-void"
  | .returnObject _ => "return-object"
  | .throwObject _ => "throw"
  | .const4 _ _ => "const/4"
  | .constString _ _ => "const-string"
  | .newInstance _ _ => "new-instance"
  | .moveResultObject _ => "move-result-object"
  | .sgetObject _ _ => "sget-object"
  | .goto _ => "goto"
  | .ifEqz _ _ => "if-eqz"
  | .packedSwitch _ _ => "packed-switch"
  | .packedSwitchPayload _ _ => "packed-switch-payload"
  | .invoke kind _ _ => kind.mnemonic
  | .invokeVirtualRange _ _ _ => "invoke-virtual/range"

/-- The opcode of the instruction; payloads have none. -/
def opcode : Operation → Nat
  | .nop => 0x00
  | .returnVoid => 0x0e
  | .returnObject _ => 0x11
  | .throwObject _ => 0x27
  | .const4 _ _ => 0x12
  | .constString _ _ => 0x1a
  | .newInstance _ _ => 0x22
  | .moveResultObject _ => 0x0c
  | .sgetObject _ _ => 0x62
  | .goto _ => 0x28
  | .ifEqz _ _ => 0x38
  | .packedSwitch _ _ => 0x2b
  | .packedSwitchPayload _ _ => 0x00
  | .invoke kind _ _ => kind.opcode
  | .invokeVirtualRange _ _ _ => 0x74

/-- The arguments as operands. -/
def operands : Operation → Operands
  | .nop | .returnVoid => .none
  | .returnObject r | .throwObject r | .moveResultObject r => .reg r.toNat
  | .const4 r value => .literal r.toNat value.toInt
  | .constString r index | .newInstance r index | .sgetObject r index =>
    .regRef r.toNat index.toNat
  | .goto distance => .branch distance.toInt
  | .ifEqz r distance => .regBranch r.toNat distance.toInt
  | .packedSwitch r distance => .regBranch r.toNat distance.toInt
  | .packedSwitchPayload firstKey targets => .packedSwitch firstKey.toInt (targets.map (·.toInt))
  | .invoke _ index args => .list (args.map (·.toNat)) index.toNat
  | .invokeVirtualRange index first count => .range first.toNat count.toNat index.toNat

/-- The instruction that is meant. -/
def instruction (op : Operation) : Instruction := ⟨op.opcode, op.operands⟩

theorem mnemonic_instruction (op : Operation) : op.instruction.mnemonic = op.mnemonic := by
  cases op
  case packedSwitchPayload => rfl
  case invoke kind index args =>
    simp only [instruction, operands, Instruction.mnemonic, opcode, mnemonic]
    cases kind <;> decide +kernel
  all_goals
    simp only [instruction, operands, Instruction.mnemonic, opcode, mnemonic]
    decide +kernel

/-! ## Numbers -/

theorem lowBits_lt (bits : Nat) (x : Int) : lowBits bits x < 2 ^ bits := by
  have pos : (0 : Int) < (2 ^ bits : Nat) := Int.natCast_pos.mpr (Nat.two_pow_pos bits)
  have below := Int.emod_lt_of_pos x pos
  have above := Int.emod_nonneg x (Int.ne_of_gt pos)
  rw [lowBits, Nat.pow_eq]
  omega

/-- The low bits of a signed number show the number, if it fits into them. -/
theorem signExtend_lowBits {bits : Nat} {x : Int} (hb : 0 < bits) (h : IsSigned bits x) :
    signExtend bits (lowBits bits x) = x := by
  obtain ⟨width, rfl⟩ := Nat.exists_eq_succ_of_ne_zero (Nat.ne_of_gt hb)
  obtain ⟨low, high⟩ := h
  have double : 2 ^ (width + 1) = 2 * 2 ^ width := Nat.pow_succ'
  rw [Nat.succ_sub_one] at low high
  simp only [signExtend, lowBits, Nat.succ_eq_add_one, Nat.add_sub_cancel, Nat.pow_eq]
  rcases Int.lt_or_le x 0 with neg | nonneg
  · have shifted : x % ((2 ^ (width + 1) : Nat) : Int) = x + (2 ^ (width + 1) : Nat) := by
      rw [← Int.add_emod_right, Int.emod_eq_of_lt] <;> omega
    rw [shifted, if_neg (by omega)]
    omega
  · rw [Int.emod_eq_of_lt nonneg (by omega), if_pos (by omega)]
    omega

theorem wideAt_wideUnits (x : Int32) (rest : List UInt16) :
    wideAt (wideUnits x ++ rest) 0 = lowBits 32 x.toInt := by
  have bound := lowBits_lt 32 x.toInt
  show (UInt16.ofNat (lowBits 32 x.toInt)).toNat +
    65536 * (UInt16.ofNat (lowBits 32 x.toInt / 65536)).toNat = _
  rw [UInt16.toNat_ofNat', UInt16.toNat_ofNat']
  omega

theorem wideInts_wideUnits (xs : List Int32) (rest : List UInt16) :
    wideInts xs.length (xs.flatMap wideUnits ++ rest) = xs.map (·.toInt) := by
  induction xs with
  | nil => rfl
  | cons x xs ih =>
    have number := wideAt_wideUnits x (xs.flatMap wideUnits ++ rest)
    have signed : IsSigned 32 x.toInt := ⟨Int32.le_toInt x, Int32.toInt_lt x⟩
    rw [List.flatMap_cons, List.append_assoc, List.map_cons,
      ← signExtend_lowBits (by decide) signed, ← number, ← ih]
    rfl

theorem length_flatMap_wideUnits (xs : List Int32) :
    (xs.flatMap wideUnits).length = 2 * xs.length := by
  induction xs with
  | nil => rfl
  | cons x xs ih =>
    rw [List.flatMap_cons, List.length_append, ih, List.length_cons, Nat.mul_succ, Nat.add_comm]
    rfl

/-! ## First units -/

theorem toNat_ofNat_of_lt {n : Nat} (h : n < 65536) : (UInt16.ofNat n).toNat = n := by
  rw [UInt16.toNat_ofNat']
  exact Nat.mod_eq_of_lt h

theorem toNat_firstUnit {code hi : Nat} (hc : code < 256) (hh : hi < 256) :
    (firstUnit code hi).toNat = hi * 256 + code := by
  rw [firstUnit, UInt16.toNat_ofNat']
  exact Nat.mod_eq_of_lt (by omega)

/-- What is decoded behind a first unit, by the layout of the opcode. -/
theorem decode_firstUnit (code : Nat) {hi : Nat} {format : Opcode.Format} {rest : List UInt16}
    {addr : Address} {operands : Operands} (hc : 0 < code ∧ code < 256) (hh : hi < 256)
    (known : (Opcode.describe? code).map (·.format) = some format)
    (whole : format.units ≤ rest.length + 1)
    (read : operandsOf format code hi (firstUnit code hi :: rest) addr = .ok operands) :
    decode (firstUnit code hi :: rest) addr = .ok ⟨code, operands⟩ := by
  have number := toNat_firstUnit hc.2 hh
  have low : (firstUnit code hi).toNat % 256 = code := by omega
  have high : (firstUnit code hi).toNat / 256 = hi := by omega
  have other : ¬ Instruction.IsPayloadHead (firstUnit code hi) := fun head => by
    have := head.1
    omega
  obtain ⟨description, described, rfl⟩ := Option.map_eq_some_iff.mp known
  rw [Instruction.decode_layout rest addr other (low.symm ▸ described), low, high,
    List.length_cons, if_pos whole, read]
  rfl

/-- Instructions with one register. -/
theorem decode_register {code : Nat} (hc : 0 < code ∧ code < 256)
    (known : (Opcode.describe? code).map (·.format) = some .f11x) (r : UInt8)
    (rest : List UInt16) (addr : Address) :
    decode (firstUnit code r.toNat :: rest) addr = .ok ⟨code, .reg r.toNat⟩ :=
  decode_firstUnit code hc (UInt8.toNat_lt r) known (Nat.le_add_left 1 _) rfl

/-- Instructions with a register and an index. -/
theorem decode_reference {code : Nat} (hc : 0 < code ∧ code < 256)
    (known : (Opcode.describe? code).map (·.format) = some .f21c) (r : UInt8) {index : UInt32}
    (small : index.toNat < 65536) (rest : List UInt16) (addr : Address) :
    decode (firstUnit code r.toNat :: UInt16.ofNat index.toNat :: rest) addr =
      .ok ⟨code, .regRef r.toNat index.toNat⟩ := by
  refine decode_firstUnit code hc (UInt8.toNat_lt r) known (Nat.le_add_left 2 _) ?_
  show Except.ok (Operands.regRef r.toNat (UInt16.ofNat index.toNat).toNat) = _
  rw [toNat_ofNat_of_lt small]

/-! ## Calls -/

section Calls

variable {args : List UInt8} (short : args.length ≤ 5) (small : ∀ r ∈ args, r.toNat < 16)

/-- The fifth register of a list, zero if there is none. -/
def fifth (args : List UInt8) : Nat := (args[4]?.getD 0).toNat

theorem packNibbles_lt (args : List UInt8) : packNibbles args < 16 ^ args.length := by
  induction args with
  | nil => decide
  | cons r rest ih =>
    rw [packNibbles, List.length_cons, Nat.pow_succ]
    omega

theorem packNibbles_take_lt (args : List UInt8) : packNibbles (args.take 4) < 65536 :=
  Nat.lt_of_lt_of_le (packNibbles_lt _)
    (Nat.pow_le_pow_right (by decide) (List.length_take_le 4 args))

include small

theorem packNibbles_digit (k : Nat) :
    packNibbles args / 16 ^ k % 16 = (args[k]?.getD 0).toNat := by
  induction args generalizing k with
  | nil => simp [packNibbles]
  | cons r rest ih =>
    have low := small r List.mem_cons_self
    have ih := ih fun r hr => small r (List.mem_cons_of_mem _ hr)
    rw [packNibbles, Nat.mod_eq_of_lt low]
    cases k with
    | zero =>
      show (r.toNat + 16 * packNibbles rest) / 1 % 16 = r.toNat
      omega
    | succ k =>
      have shifted : (r.toNat + 16 * packNibbles rest) / 16 = packNibbles rest := by omega
      rw [Nat.pow_succ', ← Nat.div_div_eq_div_mul, shifted, ih, List.getElem?_cons_succ]

theorem fifth_lt : fifth args < 16 := by
  rw [fifth]
  cases h : args[4]? with
  | none => decide
  | some r => exact small r (List.mem_of_getElem? h)

include short

/-- The first unit of a call: the number of registers above the fifth of them. -/
theorem invokeUnits_eq {code : Nat} (hc : code < 256) (index : UInt32) :
    invokeUnits code index args =
      [firstUnit code (args.length * 16 + fifth args), UInt16.ofNat index.toNat,
        UInt16.ofNat (packNibbles (args.take 4))] := by
  have low := fifth_lt small
  have last : (if args.length = 5 then (args[4]?.getD 0).toNat else 0) = fifth args := by
    split
    · rfl
    · rw [fifth, List.getElem?_eq_none (by omega)]
      rfl
  have join {i a b : Nat} (h : b < 2 ^ i) : a * 2 ^ i ||| b = a * 2 ^ i + b := by
    rw [Nat.mul_comm, Nat.two_pow_add_eq_or_of_lt h]
  have first : args.length * 4096 ||| fifth args * 256 ||| code =
      (args.length * 16 + fifth args) * 256 + code :=
    calc args.length * 4096 ||| fifth args * 256 ||| code
      _ = args.length * 4096 + fifth args * 256 ||| code :=
        congrArg (· ||| code) (join (i := 12) (by omega))
      _ = (args.length * 16 + fifth args) * 256 ||| code := congrArg (· ||| code) (by omega)
      _ = (args.length * 16 + fifth args) * 256 + code := join (i := 8) hc
  simp only [invokeUnits, last, first, firstUnit]

/-- Registers that were packed are listed again. -/
theorem argumentList_packNibbles (addr : Address) :
    argumentList (args.length * 16 + fifth args) (packNibbles (args.take 4)) addr =
      .ok (args.map (·.toNat)) := by
  have low := fifth_lt small
  have count : (args.length * 16 + fifth args) / 16 = args.length := by omega
  have top : (args.length * 16 + fifth args) % 16 = fifth args := by omega
  rw [Instruction.argumentList_eq_ok_iff, count]
  refine ⟨short, List.ext_getElem? fun k => ?_⟩
  rw [List.getElem?_map]
  rcases Nat.lt_or_ge k args.length with inside | outside
  · rw [List.getElem?_take_of_lt inside, List.getElem?_eq_getElem inside]
    rcases Nat.lt_or_ge k 4 with packed | apart
    · rw [Instruction.getElem?_places (packNibbles_take_lt args) packed,
        packNibbles_digit fun r hr => small r (List.mem_of_mem_take hr),
        List.getElem?_take_of_lt packed, List.getElem?_eq_getElem inside]
      rfl
    · obtain rfl : k = 4 := by omega
      show _ = some ((args.length * 16 + fifth args) % 16)
      rw [top, fifth, List.getElem?_eq_getElem inside]
      rfl
  · rw [List.getElem?_eq_none outside, List.getElem?_take, if_neg (Nat.not_lt_of_le outside)]
    rfl

end Calls

/-! ## Operations -/

/-- A payload is decoded with all its targets. -/
theorem decode_packedSwitchPayload (firstKey : Int32) {targets : List Int32}
    (few : targets.length ≤ 65535) (rest : List UInt16) (addr : Address) :
    decode (encode (.packedSwitchPayload firstKey targets) ++ rest) addr =
      .ok ⟨0, .packedSwitch firstKey.toInt (targets.map (·.toInt))⟩ := by
  have signed : IsSigned 32 firstKey.toInt := ⟨Int32.le_toInt firstKey, Int32.toInt_lt firstKey⟩
  have count : (UInt16.ofNat targets.length).toNat = targets.length :=
    toNat_ofNat_of_lt (Nat.lt_succ_of_le few)
  generalize hunits : UInt16.ofNat targets.length ::
    ((firstKey :: targets).flatMap wideUnits ++ rest) = units
  have entries : unitAt (0x0100 :: units) 1 = targets.length := by
    rw [← hunits]
    exact count
  have key : wideAt (0x0100 :: units) 2 = lowBits 32 firstKey.toInt := by
    rw [← hunits, ← wideAt_wideUnits firstKey (targets.flatMap wideUnits ++ rest)]
    rfl
  have numbers : wideInts targets.length (List.drop 4 (0x0100 :: units)) =
      targets.map (·.toInt) := by
    rw [← hunits, ← wideInts_wideUnits targets rest]
    rfl
  have whole : 4 + 2 * targets.length ≤ (0x0100 :: units).length := by
    rw [← hunits]
    simp only [List.length_cons, List.length_append, length_flatMap_wideUnits]
    omega
  show decode (0x0100 :: (_ :: _ ++ rest)) addr = _
  rw [List.cons_append, hunits, Instruction.decode_payload units addr (by decide)]
  show (if 4 + 2 * unitAt (0x0100 :: units) 1 ≤ _ then
    Except.ok (Instruction.mk 0 (.packedSwitch (signExtend 32 (wideAt (0x0100 :: units) 2))
      (wideInts (unitAt (0x0100 :: units) 1) (List.drop 4 (0x0100 :: units))))) else _) = _
  rw [entries, if_pos whole, key, numbers, signExtend_lowBits (by decide) signed]

/-- **One operation**: it is decoded as the instruction that is meant, whatever follows. -/
theorem decode_encode {op : Operation} (h : op.inRange = true) (rest : List UInt16)
    (addr : Address) : decode (op.encode ++ rest) addr = .ok op.instruction := by
  cases op
  case nop => rfl
  case returnVoid => rfl
  case returnObject r => exact decode_register (by decide) rfl r rest addr
  case throwObject r => exact decode_register (by decide) rfl r rest addr
  case moveResultObject r => exact decode_register (by decide) rfl r rest addr
  case constString r index =>
    exact decode_reference (by decide) rfl r (of_decide_eq_true h) rest addr
  case newInstance r index =>
    exact decode_reference (by decide) rfl r (of_decide_eq_true h) rest addr
  case sgetObject r index =>
    exact decode_reference (by decide) rfl r (of_decide_eq_true h) rest addr
  case const4 r value =>
    simp only [inRange, Bool.and_eq_true, decide_eq_true_eq] at h
    have digit := lowBits_lt 4 value.toInt
    have signed : IsSigned 4 value.toInt := ⟨h.1.2, Int.lt_add_one_of_le h.2⟩
    refine decode_firstUnit 0x12 (by decide) (by omega) rfl (Nat.le_add_left 1 _) ?_
    have low : (lowBits 4 value.toInt * 16 + r.toNat % 16) % 16 = r.toNat := by omega
    have high : (lowBits 4 value.toInt * 16 + r.toNat % 16) / 16 = lowBits 4 value.toInt := by omega
    simp only [operandsOf, low, high, signExtend_lowBits (by decide) signed]
    rfl
  case goto distance =>
    have signed : IsSigned 8 distance.toInt := ⟨Int8.le_toInt distance, Int8.toInt_lt distance⟩
    refine decode_firstUnit 0x28 (by decide) (lowBits_lt 8 _) rfl (Nat.le_add_left 1 _) ?_
    simp only [operandsOf, signExtend_lowBits (by decide) signed]
    rfl
  case ifEqz r distance =>
    have signed : IsSigned 16 distance.toInt := ⟨Int16.le_toInt distance, Int16.toInt_lt distance⟩
    refine decode_firstUnit 0x38 (by decide) (UInt8.toNat_lt r) rfl (Nat.le_add_left 2 _) ?_
    show Except.ok (Operands.regBranch r.toNat
      (signExtend 16 (UInt16.ofNat (lowBits 16 distance.toInt)).toNat)) = _
    rw [toNat_ofNat_of_lt (lowBits_lt 16 _), signExtend_lowBits (by decide) signed]
    rfl
  case packedSwitch r distance =>
    have signed : IsSigned 32 distance.toInt := ⟨Int32.le_toInt distance, Int32.toInt_lt distance⟩
    refine decode_firstUnit 0x2b (by decide) (UInt8.toNat_lt r) rfl (Nat.le_add_left 3 _) ?_
    show Except.ok (Operands.regBranch r.toNat
      (signExtend 32 (wideAt (wideUnits distance ++ rest) 0))) = _
    rw [wideAt_wideUnits, signExtend_lowBits (by decide) signed]
    rfl
  case packedSwitchPayload firstKey targets =>
    exact decode_packedSwitchPayload firstKey (of_decide_eq_true h) rest addr
  case invoke kind index args =>
    simp only [inRange, Bool.and_eq_true, decide_eq_true_eq, List.all_eq_true] at h
    obtain ⟨⟨small, short⟩, registers⟩ := h
    have code : 0 < kind.opcode ∧ kind.opcode < 256 := by cases kind <;> decide
    have known : (Opcode.describe? kind.opcode).map (·.format) = some .f35c := by
      cases kind <;> rfl
    have last := fifth_lt registers
    rw [encode, invokeUnits_eq short registers code.2]
    refine decode_firstUnit kind.opcode code (by omega) known (Nat.le_add_left 3 _) ?_
    show (argumentList _ (UInt16.ofNat (packNibbles (args.take 4))).toNat addr).map
      (fun args => Operands.list args (UInt16.ofNat index.toNat).toNat) = _
    rw [toNat_ofNat_of_lt (packNibbles_take_lt args), toNat_ofNat_of_lt small,
      argumentList_packNibbles short registers]
    rfl
  case invokeVirtualRange index first count =>
    refine decode_firstUnit 0x74 (by decide) (UInt8.toNat_lt count) rfl (Nat.le_add_left 3 _) ?_
    show Except.ok (Operands.range first.toNat count.toNat (UInt16.ofNat index.toNat).toNat) = _
    rw [toNat_ofNat_of_lt (of_decide_eq_true h)]
    rfl

theorem size_instruction (op : Operation) : op.instruction.size = op.encode.length := by
  cases op
  case packedSwitchPayload firstKey targets =>
    show 4 + 2 * (targets.map (·.toInt)).length =
      (0x0100 :: UInt16.ofNat targets.length :: (firstKey :: targets).flatMap wideUnits).length
    simp only [List.length_map, List.length_cons, length_flatMap_wideUnits]
    omega
  case invoke kind index args =>
    simp only [instruction, operands, Instruction.size, opcode, encode, invokeUnits,
      List.length_cons, List.length_nil]
    cases kind <;> decide +kernel
  all_goals
    simp only [instruction, operands, Instruction.size, opcode, encode, wideUnits,
      List.length_cons, List.length_nil]
    decide +kernel

/-! ## Programs -/

/-- The instructions of a program, each behind the units of those before it. -/
def placed (addr : Address) : List Operation → List PermissionAudit.Located
  | [] => []
  | op :: rest => ⟨addr, op.instruction⟩ :: placed (addr + op.encode.length) rest

theorem length_placed (addr : Address) (ops : List Operation) :
    (placed addr ops).length = ops.length := by
  induction ops generalizing addr with
  | nil => rfl
  | cons op rest ih => rw [placed, List.length_cons, ih, List.length_cons]

theorem getElem?_placed {addr : Address} {ops : List Operation} {k : Nat} {op : Operation}
    (h : ops[k]? = some op) :
    (placed addr ops)[k]? = some ⟨addr + ((ops.take k).flatMap encode).length, op.instruction⟩ := by
  induction ops generalizing addr k with
  | nil => simp at h
  | cons first rest ih =>
    cases k with
    | zero =>
      obtain rfl := Option.some.inj h
      rfl
    | succ k =>
      rw [placed, List.getElem?_cons_succ, ih h, List.take_succ_cons, List.flatMap_cons,
        List.length_append, Nat.add_assoc]

theorem sweepFrom_encode {ops : List Operation} (h : ∀ op ∈ ops, op.inRange = true)
    (addr : Address) : sweepFrom 0 addr (ops.flatMap encode) = .ok (placed addr ops) := by
  induction ops generalizing addr with
  | nil => rfl
  | cons op rest ih =>
    have first := decode_encode (h op List.mem_cons_self) (rest.flatMap encode) addr
    have later := ih (fun op hop => h op (List.mem_cons_of_mem _ hop)) (addr + op.encode.length)
    have more : op.encode ++ rest.flatMap encode ≠ [] := by
      intro none
      rw [none] at first
      cases first
    rw [List.flatMap_cons, Instruction.sweepFrom_front more, first]
    show (sweepFrom 0 (addr + op.instruction.size) (List.drop op.instruction.size _) >>= _) = _
    rw [size_instruction, List.drop_left, later]
    rfl

/-- **A program is swept into its operations**: one instruction for each, in order and at the
address behind the units of those before, with the opcode of the operation and its arguments as
operands. -/
theorem sweep_encode_program (ops : List Operation) (h : ∀ op ∈ ops, op.inRange = true) :
    ∃ instrs, sweep (ops.flatMap encode) = .ok instrs ∧ instrs.length = ops.length ∧
      ∀ (k : Nat) (op : Operation), ops[k]? = some op →
        ∃ l, instrs[k]? = some l ∧ l.addr = ((ops.take k).flatMap encode).length ∧
          l.instr.opcode = op.opcode ∧ l.instr.mnemonic = op.mnemonic ∧
          l.instr.operands = op.operands := by
  refine ⟨placed Address.entry ops, sweepFrom_encode h _, length_placed _ ops, ?_⟩
  intro k op hk
  refine ⟨_, getElem?_placed hk, ?_, rfl, mnemonic_instruction op, rfl⟩
  exact Nat.zero_add _

/-- A program with arguments at the ends of their ranges. -/
def sampleProgram : List Operation := [
  .const4 15 (-8), .packedSwitch 255 8, .invoke .static 65535 [15, 0, 7, 3, 9], .goto (-4),
  .returnVoid, .packedSwitchPayload (-1) [-2147483648, 7]]

theorem sampleProgram_swept :
    (∀ op ∈ sampleProgram, op.inRange = true) ∧
      ∃ instrs, sweep (sampleProgram.flatMap encode) = .ok instrs ∧ instrs.length = 6 ∧
        instrs[2]? = some ⟨4, 0x71, .list [15, 0, 7, 3, 9] 65535⟩ ∧
        instrs[5]? = some ⟨9, 0, .packedSwitch (-1) [-2147483648, 7]⟩ := by
  have inside : ∀ op ∈ sampleProgram, op.inRange = true := by decide
  obtain ⟨instrs, swept, length, each⟩ := sweep_encode_program sampleProgram inside
  refine ⟨inside, instrs, swept, length, ?_, ?_⟩
  · obtain ⟨⟨addr, code, args⟩, hl, rfl, rfl, -, rfl⟩ := each 2 _ rfl
    exact hl
  · obtain ⟨⟨addr, code, args⟩, hl, rfl, rfl, -, rfl⟩ := each 5 _ rfl
    exact hl

end Operation

end PermissionAudit.Assembler
