import Mathlib.Tactic.IntervalCases
import Mathlib.Tactic.MkIffOfInductiveProp
import PermissionAudit.Proofs.Dex.Ignored

/-!
What a decoded instruction does is what its units spell. Three tables have a say in
it: the layout of each opcode, the operands of each layout, and the operands that are
asked for when the effect on control flow or the call is read off. Here the effect is
spelled by the units alone, and the three tables are shown to agree on it, so that no jump
and no call is taken for an instruction that goes on to the next one.
-/

namespace PermissionAudit

namespace Instruction

/-! ## What units spell -/

/-- The low byte of a unit. -/
def lowByte (unit : UInt16) : Nat := unit.toNat % 256

/-- The high byte of a unit. -/
def highByte (unit : UInt16) : Nat := unit.toNat / 256

/-- Opcodes that leave the method: those of returns and throws. -/
def IsStop (opcode : Nat) : Prop := (0x0e ≤ opcode ∧ opcode ≤ 0x11) ∨ opcode = 0x27

def IsGoto (opcode : Nat) : Prop := 0x28 ≤ opcode ∧ opcode ≤ 0x2a

def IsSwitch (opcode : Nat) : Prop := opcode = 0x2b ∨ opcode = 0x2c

def IsBranch (opcode : Nat) : Prop := 0x32 ≤ opcode ∧ opcode ≤ 0x3d

instance (opcode : Nat) : Decidable (IsStop opcode) := inferInstanceAs (Decidable (_ ∨ _))

instance (opcode : Nat) : Decidable (IsGoto opcode) := inferInstanceAs (Decidable (_ ∧ _))

instance (opcode : Nat) : Decidable (IsSwitch opcode) := inferInstanceAs (Decidable (_ ∨ _))

instance (opcode : Nat) : Decidable (IsBranch opcode) := inferInstanceAs (Decidable (_ ∧ _))

/-- Opcodes that name an offset in the code to go to. -/
def IsJump (opcode : Nat) : Prop := IsGoto opcode ∨ IsSwitch opcode ∨ IsBranch opcode

/-- The offset that the units of a jump hold: a signed number of eight bits in the first unit, of
sixteen in the second, or of thirty-two in the second and the third, low half first. -/
inductive HasOffset : List UInt16 → Int → Prop where
  | byte {first : UInt16} {rest : List UInt16} :
    lowByte first = 0x28 →
    HasOffset (first :: rest) (first.toBitVec.extractLsb' 8 8).toInt
  | unit {first second : UInt16} {rest : List UInt16} :
    lowByte first = 0x29 ∨ IsBranch (lowByte first) →
    HasOffset (first :: second :: rest) second.toBitVec.toInt
  | pair {first second third : UInt16} {rest : List UInt16} :
    lowByte first = 0x2a ∨ IsSwitch (lowByte first) →
    HasOffset (first :: second :: third :: rest) (third.toBitVec ++ second.toBitVec).toInt

/-- The kinds of calls, each with the opcode that lists its arguments and the one that gives a
range of them. -/
def callForms : List (InvokeKind × Nat × Nat) := [
  (.virtual, 0x6e, 0x74), (.super, 0x6f, 0x75), (.direct, 0x70, 0x76), (.static, 0x71, 0x77),
  (.interface, 0x72, 0x78), (.polymorphic, 0xfa, 0xfb), (.custom, 0xfc, 0xfd)]

def IsCall (opcode : Nat) : Prop :=
  (0x6e ≤ opcode ∧ opcode ≤ 0x72) ∨ (0x74 ≤ opcode ∧ opcode ≤ 0x78) ∨
    (0xfa ≤ opcode ∧ opcode ≤ 0xfd)

instance (opcode : Nat) : Decidable (IsCall opcode) := inferInstanceAs (Decidable (_ ∨ _))

/-! ## Signed numbers -/

theorem signExtend_toNat {width : Nat} (hw : 0 < width) (x : BitVec width) :
    signExtend width x.toNat = x.toInt := by
  obtain ⟨bits, rfl⟩ := Nat.exists_eq_succ_of_ne_zero (Nat.ne_of_gt hw)
  have double : 2 ^ (bits + 1) = 2 * 2 ^ bits := Nat.pow_succ'
  rw [signExtend, BitVec.toInt_eq_toNat_cond]
  simp only [Nat.succ_eq_add_one, Nat.add_sub_cancel, Nat.pow_eq, double]
  split <;> split <;> omega

theorem signExtend_highByte (first : UInt16) :
    signExtend 8 (highByte first) = (first.toBitVec.extractLsb' 8 8).toInt := by
  have small := UInt16.toNat_lt first
  rw [← signExtend_toNat (by decide), BitVec.extractLsb'_toNat, Nat.shiftRight_eq_div_pow]
  congr 1
  show first.toNat / 256 = first.toNat / 256 % 256
  omega

theorem signExtend_pair (second third : UInt16) :
    signExtend 32 (second.toNat + 65536 * third.toNat) =
      (third.toBitVec ++ second.toBitVec).toInt := by
  rw [← signExtend_toNat (by decide), BitVec.toNat_append,
    ← Nat.shiftLeft_add_eq_or_of_lt second.toBitVec.isLt, Nat.shiftLeft_eq]
  congr 1
  show _ = third.toNat * 65536 + second.toNat
  omega

/-! ## The table of opcodes -/

/-- The layouts of jumps and calls, told by the opcodes that have them. -/
@[mk_iff] structure LaysOut (format : Opcode.Format) (opcode : Nat) : Prop where
  f10t : format = .f10t ↔ opcode = 0x28
  f20t : format = .f20t ↔ opcode = 0x29
  f30t : format = .f30t ↔ opcode = 0x2a
  f31t : format = .f31t ↔ opcode = 0x26 ∨ opcode = 0x2b ∨ opcode = 0x2c
  f22t : format = .f22t ↔ 0x32 ≤ opcode ∧ opcode ≤ 0x37
  f21t : format = .f21t ↔ 0x38 ≤ opcode ∧ opcode ≤ 0x3d
  f35c : format = .f35c ↔ opcode = 0x24 ∨ (0x6e ≤ opcode ∧ opcode ≤ 0x72) ∨ opcode = 0xfc
  f3rc : format = .f3rc ↔ opcode = 0x25 ∨ (0x74 ≤ opcode ∧ opcode ≤ 0x78) ∨ opcode = 0xfd
  f45cc : format = .f45cc ↔ opcode = 0xfa
  f4rcc : format = .f4rcc ↔ opcode = 0xfb

instance (format : Opcode.Format) (opcode : Nat) : Decidable (LaysOut format opcode) :=
  decidable_of_iff _ (laysOut_iff format opcode).symm

theorem laysOut_families : ∀ family ∈ Opcode.families, ∀ k < family.mnemonics.length,
    LaysOut family.format (family.first + k) := by
  decide +kernel

theorem laysOut_of_describe? {opcode : Nat} {description : Opcode.Description}
    (known : Opcode.describe? opcode = some description) : LaysOut description.format opcode := by
  obtain ⟨family, hf, entry⟩ := List.exists_of_findSome?_eq_some known
  unfold Opcode.Family.describe? at entry
  split at entry
  · rename_i first
    obtain ⟨mnemonic, hm, rfl⟩ := Option.map_eq_some_iff.mp entry
    obtain ⟨small, -⟩ := List.getElem?_eq_some_iff.mp hm
    have laid := laysOut_families family hf _ small
    rwa [Nat.add_sub_cancel' first] at laid
  · cases entry

/-! ## Instructions of a layout -/

/-- The effect of an opcode, with the offset it may go to. -/
def flowOf (opcode : Nat) (offset : Int) : Flow :=
  if IsStop opcode then .stop
  else if IsGoto opcode then .goto offset
  else if IsSwitch opcode then .switch offset
  else if IsBranch opcode then .branch offset
  else .next

/-- The offset of a jump by its opcode. -/
def offsetOf (opcode hi : Nat) (units : List UInt16) : Int :=
  if opcode = 0x28 then signExtend 8 hi
  else if opcode = 0x2a ∨ IsSwitch opcode then signExtend 32 (wideAt units 1)
  else signExtend 16 (unitAt units 1)

section

variable {opcode : Nat} {offset other : Int}

theorem flowOf_eq_stop_iff : flowOf opcode offset = .stop ↔ IsStop opcode := by
  grind [flowOf]

theorem flowOf_eq_goto_iff :
    flowOf opcode offset = .goto other ↔ IsGoto opcode ∧ other = offset := by
  grind [flowOf, IsStop, IsGoto]

theorem flowOf_eq_switch_iff :
    flowOf opcode offset = .switch other ↔ IsSwitch opcode ∧ other = offset := by
  grind [flowOf, IsStop, IsGoto, IsSwitch]

theorem flowOf_eq_branch_iff :
    flowOf opcode offset = .branch other ↔ IsBranch opcode ∧ other = offset := by
  grind [flowOf, IsStop, IsGoto, IsSwitch, IsBranch]

theorem flowOf_eq_next_iff :
    flowOf opcode offset = .next ↔ ¬ IsStop opcode ∧ ¬ IsJump opcode := by
  grind [flowOf, IsJump]

end

section

variable {format : Opcode.Format} {opcode hi : Nat} {units : List UInt16} {addr : Address}
  {operands : Operands}

theorem opcodeIn_eq_true_iff {i : Instruction} {low high : Nat} :
    i.opcodeIn low high = true ↔ low ≤ i.opcode ∧ i.opcode ≤ high := by
  simp [opcodeIn]

theorem flow_of_stop (plain : operands.isPayload = false) (stop : IsStop opcode) :
    flow ⟨opcode, operands⟩ = .stop := by
  simp only [flow, isPayload, plain, opcodeIn_eq_true_iff, Bool.or_eq_true, beq_iff_eq,
    Bool.false_eq_true, if_false]
  exact if_pos stop

/-- Opcodes that neither stop nor jump go on, whatever their operands are. -/
theorem flow_of_not_jump (plain : operands.isPayload = false) (stop : ¬ IsStop opcode)
    (jump : ¬ IsJump opcode) : flow ⟨opcode, operands⟩ = .next := by
  unfold IsStop at stop
  unfold IsJump IsGoto IsSwitch IsBranch at jump
  simp only [flow, isPayload, plain, opcodeIn_eq_true_iff, Bool.or_eq_true, beq_iff_eq,
    Bool.false_eq_true, if_false]
  rw [if_neg stop]
  cases operands with
  | branch distance => exact if_neg (by omega)
  | regBranch r distance => exact (if_neg (by omega)).trans (if_neg (by omega))
  | regsBranch r s distance => exact if_neg (by omega)
  | _ => rfl

theorem flow_branch (goto : IsGoto opcode) (distance : Int) :
    flow ⟨opcode, .branch distance⟩ = .goto distance := by
  unfold IsGoto at goto
  simp only [flow, isPayload, Operands.isPayload, opcodeIn_eq_true_iff, Bool.or_eq_true,
    beq_iff_eq, Bool.false_eq_true, if_false]
  rw [if_neg (by omega), if_pos goto]

theorem flow_regBranch_of_switch (switch : IsSwitch opcode) (r : Register) (distance : Int) :
    flow ⟨opcode, .regBranch r distance⟩ = .switch distance := by
  unfold IsSwitch at switch
  simp only [flow, isPayload, Operands.isPayload, opcodeIn_eq_true_iff, Bool.or_eq_true,
    beq_iff_eq, Bool.false_eq_true, if_false]
  rw [if_neg (by omega), if_pos (by omega)]

theorem flow_regBranch (branch : 0x38 ≤ opcode ∧ opcode ≤ 0x3d) (r : Register) (distance : Int) :
    flow ⟨opcode, .regBranch r distance⟩ = .branch distance := by
  simp only [flow, isPayload, Operands.isPayload, opcodeIn_eq_true_iff, Bool.or_eq_true,
    beq_iff_eq, Bool.false_eq_true, if_false]
  rw [if_neg (by omega), if_neg (by omega), if_pos branch]

theorem flow_regsBranch (branch : 0x32 ≤ opcode ∧ opcode ≤ 0x37) (r s : Register)
    (distance : Int) : flow ⟨opcode, .regsBranch r s distance⟩ = .branch distance := by
  simp only [flow, isPayload, Operands.isPayload, opcodeIn_eq_true_iff, Bool.or_eq_true,
    beq_iff_eq, Bool.false_eq_true, if_false]
  rw [if_neg (by omega), if_pos branch]

/-- The layout of a jump has the operands that its effect is read off from. -/
theorem flow_of_layout (plain : operands.isPayload = false) (table : LaysOut format opcode)
    (ho : operandsOf format opcode hi units addr = .ok operands) :
    flow ⟨opcode, operands⟩ = flowOf opcode (offsetOf opcode hi units) := by
  by_cases stop : IsStop opcode
  · rw [flow_of_stop plain stop, flowOf_eq_stop_iff.mpr stop]
  by_cases jump : IsJump opcode
  · rcases jump with goto | switch | branch
    · rw [flowOf_eq_goto_iff.mpr ⟨goto, rfl⟩]
      obtain rfl | rfl | rfl : opcode = 0x28 ∨ opcode = 0x29 ∨ opcode = 0x2a := by
        unfold IsGoto at goto
        omega
      · obtain rfl := table.f10t.mpr rfl
        cases ho
        exact flow_branch goto _
      · obtain rfl := table.f20t.mpr rfl
        cases ho
        exact flow_branch goto _
      · obtain rfl := table.f30t.mpr rfl
        cases ho
        exact flow_branch goto _
    · rw [flowOf_eq_switch_iff.mpr ⟨switch, rfl⟩, offsetOf,
        if_neg (by unfold IsSwitch at switch; omega), if_pos (.inr switch)]
      obtain rfl := table.f31t.mpr (.inr switch)
      cases ho
      exact flow_regBranch_of_switch switch _ _
    · have far : ¬ (opcode = 0x2a ∨ IsSwitch opcode) := by
        unfold IsBranch at branch
        unfold IsSwitch
        omega
      rw [flowOf_eq_branch_iff.mpr ⟨branch, rfl⟩, offsetOf,
        if_neg (by unfold IsBranch at branch; omega), if_neg far]
      -- branches on two registers come first
      rcases Nat.lt_or_ge opcode 0x38 with two | one
      · have both : 0x32 ≤ opcode ∧ opcode ≤ 0x37 := ⟨branch.1, Nat.le_of_lt_succ two⟩
        obtain rfl := table.f22t.mpr both
        cases ho
        exact flow_regsBranch both _ _ _
      · have single : 0x38 ≤ opcode ∧ opcode ≤ 0x3d := ⟨one, branch.2⟩
        obtain rfl := table.f21t.mpr single
        cases ho
        exact flow_regBranch single _ _
  · rw [flow_of_not_jump plain stop jump, flowOf_eq_next_iff.mpr ⟨stop, jump⟩]

theorem invokeKind?_eq_some_iff {kind : InvokeKind} :
    invokeKind? opcode = some kind ↔
      ∃ listed ranged, (kind, listed, ranged) ∈ callForms ∧
        (opcode = listed ∨ opcode = ranged) := by
  constructor
  · intro h
    unfold invokeKind? at h
    split at h <;> cases h <;> simp [callForms]
  · rintro ⟨listed, ranged, form, ho⟩
    simp only [callForms, List.mem_cons, List.not_mem_nil, or_false, Prod.mk.injEq] at form
    rcases form with ⟨rfl, rfl, rfl⟩ | ⟨rfl, rfl, rfl⟩ | ⟨rfl, rfl, rfl⟩ | ⟨rfl, rfl, rfl⟩ |
        ⟨rfl, rfl, rfl⟩ | ⟨rfl, rfl, rfl⟩ | ⟨rfl, rfl, rfl⟩ <;>
      rcases ho with rfl | rfl <;> rfl

theorem isSome_invokeKind?_iff : (invokeKind? opcode).isSome ↔ IsCall opcode := by
  constructor
  · intro h
    obtain ⟨kind, hk⟩ := Option.isSome_iff_exists.mp h
    obtain ⟨listed, ranged, form, ho⟩ := invokeKind?_eq_some_iff.mp hk
    have calls : ∀ form ∈ callForms, IsCall form.2.1 ∧ IsCall form.2.2 := by decide
    rcases ho with rfl | rfl
    · exact (calls _ form).1
    · exact (calls _ form).2
  · rintro (⟨low, high⟩ | ⟨low, high⟩ | ⟨low, high⟩)
    all_goals
      interval_cases opcode <;> rfl

/-- The layouts of calls. -/
theorem LaysOut.of_call (table : LaysOut format opcode) (call : IsCall opcode) :
    format = .f35c ∨ format = .f3rc ∨ format = .f45cc ∨ format = .f4rcc := by
  rcases call with list | range | ⟨low, high⟩
  · exact .inl (table.f35c.mpr (.inr (.inl list)))
  · exact .inr (.inl (table.f3rc.mpr (.inr (.inl range))))
  · obtain h | h | h | h : opcode = 0xfa ∨ opcode = 0xfb ∨ opcode = 0xfc ∨ opcode = 0xfd := by
      omega
    · exact .inr (.inr (.inl (table.f45cc.mpr h)))
    · exact .inr (.inr (.inr (table.f4rcc.mpr h)))
    · exact .inl (table.f35c.mpr (.inr (.inr h)))
    · exact .inr (.inl (table.f3rc.mpr (.inr (.inr h))))

theorem invoke?_of_layout (table : LaysOut format opcode)
    (ho : operandsOf format opcode hi units addr = .ok operands) :
    invoke? ⟨opcode, operands⟩ = (invokeKind? opcode).map fun kind => (kind, unitAt units 1) := by
  rcases hk : invokeKind? opcode with _ | kind
  · simp [invoke?, hk]
  · have call : IsCall opcode := isSome_invokeKind?_iff.mp (by rw [hk]; rfl)
    rcases table.of_call call with rfl | rfl | rfl | rfl
    · obtain ⟨args, -, rfl⟩ := map_eq_ok_iff.mp ho
      simp [invoke?, hk]
    · cases ho
      simp [invoke?, hk]
    · obtain ⟨args, -, rfl⟩ := map_eq_ok_iff.mp ho
      simp [invoke?, hk]
    · cases ho
      simp [invoke?, hk]

end

/-! ## Offsets -/

section

variable {format : Opcode.Format} {first : UInt16} {rest : List UInt16}

theorem HasOffset.eq {offset : Int} (h : HasOffset (first :: rest) offset) :
    offset = offsetOf (lowByte first) (highByte first) (first :: rest) := by
  cases h with
  | byte ho => rw [offsetOf, if_pos ho, signExtend_highByte]
  | unit ho =>
    unfold IsBranch at ho
    rw [offsetOf, if_neg (by omega), if_neg (by unfold IsSwitch; omega)]
    exact (signExtend_toNat (by decide) _).symm
  | pair ho =>
    rw [offsetOf, if_neg (by unfold IsSwitch at ho; omega), if_pos ho]
    exact (signExtend_pair _ _).symm

/-- The units of a jump are long enough to hold an offset. -/
theorem exists_hasOffset (table : LaysOut format (lowByte first))
    (whole : format.units ≤ (first :: rest).length) (jump : IsJump (lowByte first)) :
    ∃ offset, HasOffset (first :: rest) offset := by
  unfold IsJump IsGoto IsSwitch IsBranch at jump
  by_cases byte : lowByte first = 0x28
  · exact ⟨_, .byte byte⟩
  by_cases pair : lowByte first = 0x2a ∨ IsSwitch (lowByte first)
  · have units : 3 ≤ (first :: rest).length := by
      rcases pair with pair | pair
      · rwa [table.f30t.mpr pair] at whole
      · rwa [table.f31t.mpr (.inr pair)] at whole
    rcases rest with _ | ⟨second, _ | ⟨third, rest⟩⟩
    · simp at units
    · simp at units
    · exact ⟨_, .pair pair⟩
  · have unit : lowByte first = 0x29 ∨ IsBranch (lowByte first) := by
      unfold IsSwitch at pair
      unfold IsBranch
      omega
    have units : 2 ≤ (first :: rest).length := by
      rcases unit with unit | ⟨low, high⟩
      · rwa [table.f20t.mpr unit] at whole
      · rcases Nat.lt_or_ge (lowByte first) 0x38 with two | one
        · rwa [table.f22t.mpr ⟨low, Nat.le_of_lt_succ two⟩] at whole
        · rwa [table.f21t.mpr ⟨one, high⟩] at whole
    rcases rest with _ | ⟨second, rest⟩
    · simp at units
    · exact ⟨_, .unit unit⟩

/-- The units of a call are long enough to hold an index. -/
theorem getElem?_one_of_call (table : LaysOut format (lowByte first))
    (whole : format.units ≤ (first :: rest).length) (call : IsCall (lowByte first)) (index : Nat) :
    unitAt (first :: rest) 1 = index ↔
      ∃ second, (first :: rest)[1]? = some second ∧ index = second.toNat := by
  have units : 2 ≤ (first :: rest).length := by
    refine Nat.le_trans ?_ whole
    rcases table.of_call call with rfl | rfl | rfl | rfl <;> decide
  rcases rest with _ | ⟨second, rest⟩
  · simp at units
  · show second.toNat = index ↔ ∃ unit, some second = some unit ∧ index = unit.toNat
    constructor
    · rintro rfl
      exact ⟨second, rfl, rfl⟩
    · rintro ⟨unit, same, rfl⟩
      exact congrArg UInt16.toNat (Option.some.inj same)

end

/-! ## Effects -/

/-- An offset is the one that the units of the jump hold. -/
theorem eq_offsetOf_iff {format : Opcode.Format} {first : UInt16} {rest : List UInt16}
    (table : LaysOut format (lowByte first)) (whole : format.units ≤ (first :: rest).length)
    (jump : IsJump (lowByte first)) (offset : Int) :
    offset = offsetOf (lowByte first) (highByte first) (first :: rest) ↔
      HasOffset (first :: rest) offset := by
  constructor
  · rintro rfl
    obtain ⟨held, hh⟩ := exists_hasOffset table whole jump
    exact hh.eq ▸ hh
  · exact HasOffset.eq

section

variable {first : UInt16} {rest : List UInt16} {addr : Address} {i : Instruction}

theorem highByte_lt (unit : UInt16) : highByte unit < 256 := by
  have := UInt16.toNat_lt unit
  unfold highByte
  omega

theorem isPayload_decode_iff (h : decode (first :: rest) addr = .ok i) :
    i.isPayload ↔ IsPayloadHead first := by
  rcases decode_cases h with ⟨head, rfl, -⟩ | ⟨other, description, operands, -, ho, rfl, -⟩
  · exact iff_of_true (isPayload_payloadOf _ _) head
  · have plain := (operands_of_layout (highByte_lt first) ho).1
    exact iff_of_false (fun payload => Bool.false_ne_true (plain.symm.trans payload)) other

theorem effect_of_payload (h : decode (first :: rest) addr = .ok i) (payload : i.isPayload) :
    i.flow = .payload ∧ i.invoke? = none := by
  refine ⟨by rw [flow, if_pos payload], ?_⟩
  rcases decode_cases h with ⟨-, rfl, -⟩ | ⟨other, -⟩
  · rfl
  · exact absurd ((isPayload_decode_iff h).mp payload) other

/-- The effect and the call of an instruction by its opcode, as its layout has them. -/
theorem effect_of_layout (h : decode (first :: rest) addr = .ok i) (plain : ¬ i.isPayload) :
    ∃ format, LaysOut format (lowByte first) ∧ format.units ≤ (first :: rest).length ∧
      i.flow = flowOf (lowByte first)
        (offsetOf (lowByte first) (highByte first) (first :: rest)) ∧
      i.invoke? = (invokeKind? (lowByte first)).map fun kind =>
        (kind, unitAt (first :: rest) 1) := by
  have inside := (decode_inside h).1
  rcases decode_cases h with ⟨head, -⟩ | ⟨-, description, operands, known, ho, rfl, size⟩
  · exact absurd ((isPayload_decode_iff h).mpr head) plain
  · have table := laysOut_of_describe? known
    have plain := (operands_of_layout (highByte_lt first) ho).1
    exact ⟨description.format, table, size ▸ inside, flow_of_layout plain table ho,
      invoke?_of_layout table ho⟩

end

/-- **A decoded instruction does what its units spell.** -/
theorem decode_effect_exact {units : List UInt16} {addr : Address} {i : Instruction}
    (h : decode units addr = .ok i) :
    ∃ first rest, units = first :: rest ∧
      (i.isPayload ↔ lowByte first = 0 ∧
        (highByte first = 1 ∨ highByte first = 2 ∨ highByte first = 3)) ∧
      (i.isPayload → i.flow = .payload ∧ i.invoke? = none) ∧
      (¬ i.isPayload →
        (i.flow = .stop ↔ IsStop (lowByte first)) ∧
        (∀ offset, i.flow = .goto offset ↔ IsGoto (lowByte first) ∧ HasOffset units offset) ∧
        (∀ offset, i.flow = .switch offset ↔ IsSwitch (lowByte first) ∧ HasOffset units offset) ∧
        (∀ offset, i.flow = .branch offset ↔ IsBranch (lowByte first) ∧ HasOffset units offset) ∧
        (IsJump (lowByte first) → ∃ offset, HasOffset units offset) ∧
        (i.flow = .next ↔ ¬ IsStop (lowByte first) ∧ ¬ IsJump (lowByte first)) ∧
        (i.invoke?.isSome ↔ IsCall (lowByte first)) ∧
        ∀ kind index, i.invoke? = some (kind, index) ↔
          (∃ listed ranged, (kind, listed, ranged) ∈ callForms ∧
            (lowByte first = listed ∨ lowByte first = ranged)) ∧
          ∃ second, units[1]? = some second ∧ index = second.toNat) := by
  rcases units with _ | ⟨first, rest⟩
  · cases h
  refine ⟨first, rest, rfl, ?_, effect_of_payload h, fun plain => ?_⟩
  · rw [isPayload_decode_iff h, IsPayloadHead, lowByte, highByte]
    omega
  obtain ⟨format, table, whole, hflow, hcall⟩ := effect_of_layout h plain
  have held := eq_offsetOf_iff table whole
  rw [hflow, hcall]
  refine ⟨flowOf_eq_stop_iff, fun offset => ?_, fun offset => ?_, fun offset => ?_,
    exists_hasOffset table whole, flowOf_eq_next_iff, ?_, fun kind index => ?_⟩
  · rw [flowOf_eq_goto_iff]
    exact and_congr_right fun goto => held (.inl goto) offset
  · rw [flowOf_eq_switch_iff]
    exact and_congr_right fun switch => held (.inr (.inl switch)) offset
  · rw [flowOf_eq_branch_iff]
    exact and_congr_right fun branch => held (.inr (.inr branch)) offset
  · rw [Option.isSome_map, isSome_invokeKind?_iff]
  · rw [← invokeKind?_eq_some_iff]
    constructor
    · intro some
      obtain ⟨kind', hk, same⟩ := Option.map_eq_some_iff.mp some
      obtain ⟨rfl, index⟩ := Prod.mk.inj same
      have call : IsCall (lowByte first) := isSome_invokeKind?_iff.mp (by rw [hk]; rfl)
      exact ⟨hk, (getElem?_one_of_call table whole call _).mp index⟩
    · rintro ⟨hk, index⟩
      have call : IsCall (lowByte first) := isSome_invokeKind?_iff.mp (by rw [hk]; rfl)
      rw [hk, Option.map_some, (getElem?_one_of_call table whole call _).mpr index]

/-- A jump back over two units, and a call of the method with number seven that gives its
arguments as a range. -/
theorem jump_and_call_effect :
    decode [0x0029, 0xfffe] 5 = .ok ⟨0x29, .branch (-2)⟩ ∧
      decode [0x0175, 0x0007, 0x0003] 8 = .ok ⟨0x75, .range 3 1 7⟩ ∧
      flow ⟨0x29, .branch (-2)⟩ = .goto (-2) ∧
      invoke? ⟨0x75, .range 3 1 7⟩ = some (.super, 7) := by
  have jump : decode [0x0029, 0xfffe] 5 = .ok ⟨0x29, .branch (-2)⟩ := by decide
  have call : decode [0x0175, 0x0007, 0x0003] 8 = .ok ⟨0x75, .range 3 1 7⟩ := by decide
  refine ⟨jump, call, ?_, ?_⟩
  · obtain ⟨first, rest, hu, -, -, plain⟩ := decode_effect_exact jump
    obtain ⟨rfl, rfl⟩ := List.cons.inj hu
    obtain ⟨-, goto, -⟩ := plain (by decide)
    exact (goto (-2)).mpr ⟨by decide, .unit (.inl (by decide))⟩
  · obtain ⟨first, rest, hu, -, -, plain⟩ := decode_effect_exact call
    obtain ⟨rfl, rfl⟩ := List.cons.inj hu
    obtain ⟨-, -, -, -, -, -, -, made⟩ := plain (by decide)
    exact (made .super 7).mpr ⟨⟨0x6f, 0x75, by decide, .inr (by decide)⟩, 7, rfl, rfl⟩

end Instruction

end PermissionAudit
