import PermissionAudit.Proofs.Dex.Decoded

/-!
Decoding of instructions without a trap. The layout of an opcode says which
units are read, and it is compared with the number of units first; a payload
asks for each of its units. So an instruction ends inside the units it was
decoded from, which keeps the sweep inside the method.
-/

namespace PermissionAudit

namespace Machine

open Opcode (Format Family Description)
open Instruction (Fault signExtend)

/-! ## Opcodes -/

/-- The last opcode of each family. -/
def lastOpcodes : List Nat := [
  0x00, 0x01, 0x02, 0x03, 0x04, 0x05, 0x06, 0x07, 0x08, 0x09, 0x0d, 0x0e, 0x11, 0x12, 0x13, 0x14,
  0x15, 0x16, 0x17, 0x18, 0x19, 0x1a, 0x1b, 0x1c, 0x1e, 0x1f, 0x20, 0x21, 0x22, 0x23, 0x24, 0x25,
  0x26, 0x27, 0x28, 0x29, 0x2a, 0x2c, 0x31, 0x37, 0x3d, 0x51, 0x5f, 0x6d, 0x72, 0x78, 0x8f, 0xaf,
  0xcf, 0xd7, 0xe2, 0xfa, 0xfb, 0xfc, 0xfd, 0xfe, 0xff]

/-- The description of an opcode, out of families with their last opcodes. The range of a family
is written down apart from its mnemonics. -/
def describeIn (opcode : Nat) : List (Family × Nat) → Run (Option Description)
  | [] => return none
  | (family, last) :: rest =>
    if family.first ≤ opcode ∧ opcode ≤ last then do
      let position ← sub 8 opcode family.first
      let mnemonic ← index family.mnemonics position
      return some ⟨mnemonic, family.format, family.reference⟩
    else
      describeIn opcode rest

def describe (opcode : Nat) : Run (Option Description) :=
  describeIn opcode (Opcode.families.zip lastOpcodes)

/-- There is a mnemonic for every opcode of a range. -/
theorem describeIn_eq (opcode : Nat) {ranges : List (Family × Nat)}
    (h : ∀ r ∈ ranges, r.1.first + r.1.mnemonics.length = r.2 + 1) :
    describeIn opcode ranges =
      .ok ((ranges.map (·.1)).findSome? (·.describe? opcode)) := by
  induction ranges with
  | nil => rfl
  | cons range rest ih =>
    obtain ⟨family, last⟩ := range
    have length : family.first + family.mnemonics.length = last + 1 :=
      h (family, last) List.mem_cons_self
    rw [describeIn, List.map_cons, List.findSome?_cons, Family.describe?,
      ih fun r hr => h r (List.mem_cons_of_mem _ hr)]
    by_cases low : family.first ≤ opcode
    · by_cases high : opcode ≤ last
      · obtain ⟨mnemonic, hm⟩ : ∃ m, family.mnemonics[opcode - family.first]? = some m :=
          ⟨_, List.getElem?_eq_getElem (by omega)⟩
        rw [if_pos ⟨low, high⟩, if_pos low, hm, sub_eq low]
        show (index family.mnemonics (opcode - family.first) >>= _) = _
        rw [index_eq hm]
        rfl
      · have outside : family.mnemonics[opcode - family.first]? = none :=
          List.getElem?_eq_none (by omega)
        rw [if_neg fun both => high both.2, if_pos low, outside]
        rfl
    · rw [if_neg fun both => low both.1, if_neg low]

theorem describe_eq (opcode : Nat) : describe opcode = .ok (Opcode.describe? opcode) := by
  rw [describe, describeIn_eq opcode (by decide)]
  rfl

/-! ## Operands -/

/-- The unit at a position. -/
def unit (units : List UInt16) (i : Nat) : Run Nat := do
  return (← index units i).toNat

/-- Two units as one number. -/
def wide (lo hi : Nat) : Run Nat := do
  return lo ||| (← shiftLeft 32 hi 16)

theorem unit_eq {units : List UInt16} {i : Nat} (h : i < units.length) :
    unit units i = .ok (Instruction.unitAt units i) := by
  rw [unit, index_eq (List.getElem?_eq_getElem h), Instruction.unitAt,
    List.getElem?_eq_getElem h]
  rfl

theorem wide_eq {lo hi : Nat} (hl : lo < 2 ^ 16) (hh : hi < 2 ^ 16) :
    wide lo hi = .ok (lo + 65536 * hi) := by
  rw [wide, shiftLeft_eq (by decide)]
  exact congrArg Except.ok (or_shiftLeft hl (by omega))

/-- The registers of a list form, out of all that its digits may name. -/
def argumentList (hi regs : Nat) (addr : Address) : Fallible Fault (List Register) := do
  let count ← shiftRight 8 hi 4
  if 5 < count then
    throw (.argumentCount count addr)
  let second ← shiftRight 16 regs 4
  let third ← shiftRight 16 regs 8
  let fourth ← shiftRight 16 regs 12
  slice [regs % 16, second % 16, third % 16, fourth, hi % 16] 0 count

theorem argumentList_eq (hi regs : Nat) (addr : Address) :
    argumentList hi regs addr = finished (Instruction.argumentList hi regs addr) := by
  rw [argumentList, Instruction.argumentList]
  refine (lift_bind (shiftRight_eq (by decide)) _).trans ?_
  show (if 5 < hi / 16 then _ else _) = _
  split
  · rfl
  · rename_i few
    refine (lift_bind (shiftRight_eq (by decide)) _).trans ?_
    refine (lift_bind (shiftRight_eq (by decide)) _).trans ?_
    refine (lift_bind (shiftRight_eq (by decide)) _).trans ?_
    rw [slice_eq (Nat.zero_le _) (by simpa using few), lift_ok]
    rfl

/-- Operands of a layout. `hi` is the high byte of the first unit. -/
def operandsOf (format : Format) (opcode hi : Nat) (units : List UInt16) (addr : Address) :
    Fallible Fault Operands := do
  let low := hi % 16
  let high ← shiftRight 8 hi 4
  match format with
  | .f10x => return .none
  | .f12x => return .regs2 low high
  | .f11n => return .literal low (← shiftRightSigned 8 (signExtend 8 hi) 4)
  | .f11x => return .reg hi
  | .f10t => return .branch (signExtend 8 hi)
  | .f20t => return .branch (signExtend 16 (← unit units 1))
  | .f22x => return .regs2 hi (← unit units 1)
  | .f21t => return .regBranch hi (signExtend 16 (← unit units 1))
  | .f21s => return .literal hi (signExtend 16 (← unit units 1))
  | .f21h =>
    let shift := if opcode = 0x15 then 16 else 48
    return .literal hi (← shiftLeftSigned 64 (signExtend 16 (← unit units 1)) shift)
  | .f21c => return .regRef hi (← unit units 1)
  | .f23x => return .regs3 hi ((← unit units 1) % 256) (← shiftRight 16 (← unit units 1) 8)
  | .f22b =>
    return .regsLiteral hi ((← unit units 1) % 256)
      (signExtend 8 (← shiftRight 16 (← unit units 1) 8))
  | .f22t => return .regsBranch low high (signExtend 16 (← unit units 1))
  | .f22s => return .regsLiteral low high (signExtend 16 (← unit units 1))
  | .f22c => return .regsRef low high (← unit units 1)
  | .f32x => return .regs2 (← unit units 1) (← unit units 2)
  | .f30t => return .branch (signExtend 32 (← wide (← unit units 1) (← unit units 2)))
  | .f31t => return .regBranch hi (signExtend 32 (← wide (← unit units 1) (← unit units 2)))
  | .f31i => return .literal hi (signExtend 32 (← wide (← unit units 1) (← unit units 2)))
  | .f31c => return .regRef hi (← wide (← unit units 1) (← unit units 2))
  | .f35c => return .list (← argumentList hi (← unit units 2) addr) (← unit units 1)
  | .f3rc => return .range (← unit units 2) hi (← unit units 1)
  | .f45cc =>
    return .polyList (← argumentList hi (← unit units 2) addr) (← unit units 1) (← unit units 3)
  | .f4rcc => return .polyRange (← unit units 2) hi (← unit units 1) (← unit units 3)
  | .f51l =>
    let lo ← wide (← unit units 1) (← unit units 2)
    let up ← wide (← unit units 3) (← unit units 4)
    return .literal hi (signExtend 64 (lo ||| (← shiftLeft 64 up 32)))

theorem operandsOf_eq {format : Format} {opcode hi : Nat} {units : List UInt16} {addr : Address}
    (hh : hi < 256) (h : format.units ≤ units.length) :
    operandsOf format opcode hi units addr =
      finished (Instruction.operandsOf format opcode hi units addr) := by
  have read (i : Nat) (hi : i < format.units) :
      unit units i = .ok (Instruction.unitAt units i) := unit_eq (Nat.lt_of_lt_of_le hi h)
  have wideUnits (i j : Nat) : wide (Instruction.unitAt units i) (Instruction.unitAt units j) =
      .ok (Instruction.unitAt units i + 65536 * Instruction.unitAt units j) :=
    wide_eq (Instruction.unitAt_lt units i) (Instruction.unitAt_lt units j)
  rw [operandsOf]
  refine (lift_bind (shiftRight_eq (by decide)) _).trans ?_
  cases format
  case f10x | f12x | f11x | f10t => rfl
  case f11n =>
    rw [shiftRightSigned_eq (by decide), Instruction.signExtend_digit hh]
    rfl
  case f20t | f22x | f21t | f21s | f21c | f23x | f22b | f22t | f22s | f22c =>
    rw [read 1 (by decide)]
    rfl
  case f32x | f3rc =>
    rw [read 1 (by decide), read 2 (by decide)]
    rfl
  case f30t | f31t | f31i | f31c =>
    simp only [read 1 (by decide), read 2 (by decide), lift_ok, pure_bind, wideUnits]
    rfl
  case f21h =>
    simp only [read 1 (by decide), lift_ok, pure_bind]
    have small := Instruction.isSigned_signExtend (by decide) (Instruction.unitAt_lt units 1)
    rw [shiftLeftSigned_eq (by split <;> decide) (small.shift (by decide) (by split <;> decide))]
    rfl
  case f35c =>
    simp only [read 1 (by decide), read 2 (by decide), lift_ok, pure_bind, argumentList_eq]
    exact finished_map _ _
  case f45cc =>
    simp only [read 1 (by decide), read 2 (by decide), read 3 (by decide), lift_ok, pure_bind,
      argumentList_eq]
    exact finished_map _ _
  case f4rcc =>
    rw [read 1 (by decide), read 2 (by decide), read 3 (by decide)]
    rfl
  case f51l =>
    simp only [read 1 (by decide), read 2 (by decide), read 3 (by decide), read 4 (by decide),
      lift_ok, pure_bind, wideUnits]
    have bound := Instruction.unitAt_lt units
    have h1 := bound 1
    have h2 := bound 2
    have h3 := bound 3
    have h4 := bound 4
    rw [shiftLeft_eq (by decide), lift_ok, pure_bind, or_shiftLeft (by omega) (by omega)]
    rfl

/-! ## Payloads -/

/-- The unit at a position that may lie behind the last one. -/
def unitOr (units : List UInt16) (addr : Address) (i : Nat) : Fallible Fault Nat :=
  match units[i]? with
  | some u => return u.toNat
  | none => throw (.truncated addr)

/-- The signed number of two units at a position. -/
def readWide (units : List UInt16) (addr : Address) (i : Nat) : Fallible Fault Int := do
  let lo ← unitOr units addr i
  let hi ← unitOr units addr (← add 64 i 1)
  return signExtend 32 (← wide lo hi)

/-- The first `count` signed numbers of two units each, from position `start` on. -/
def readWides (units : List UInt16) (addr : Address) (start count : Nat) :
    Fallible Fault (List Int) :=
  (List.range count).mapM fun i => do
    readWide units addr (← add 64 start (← mul 64 2 i))

/-- The payload of a packed switch, and its size. -/
def packedSwitch (entries : Nat) (units : List UInt16) (addr : Address) :
    Fallible Fault (Instruction × Nat) := do
  let firstKey ← readWide units addr 2
  let targets ← readWides units addr 4 entries
  return (⟨0, .packedSwitch firstKey targets⟩, ← add 64 4 (← mul 64 entries 2))

/-- The payload of a sparse switch, and its size. -/
def sparseSwitch (entries : Nat) (units : List UInt16) (addr : Address) :
    Fallible Fault (Instruction × Nat) := do
  let keys ← readWides units addr 2 entries
  let targets ← readWides units addr (← add 64 2 (← mul 64 2 entries)) entries
  return (⟨0, .sparseSwitch (keys.zip targets)⟩, ← add 64 2 (← mul 64 entries 4))

/-- The payload of an array, and its size. -/
def arrayData (width : Nat) (units : List UInt16) (addr : Address) :
    Fallible Fault (Instruction × Nat) := do
  let lo ← unitOr units addr 2
  let hi ← unitOr units addr 3
  let count ← wide lo hi
  -- a product that is not a word is found out and reported
  match mul 64 width count with
  | .error _ => throw (.truncated addr)
  | .ok bytes =>
    let size ← add 64 4 ((← add 64 bytes 1) / 2)
    if units.length < size then
      throw (.truncated addr)
    return (⟨0, .fillArrayData width count⟩, size)

/-- A payload and its size. -/
def decodePayload (kind : Nat) (units : List UInt16) (addr : Address) :
    Fallible Fault (Instruction × Nat) := do
  let entries ← unitOr units addr 1
  if kind = 1 then
    packedSwitch entries units addr
  else if kind = 2 then
    sparseSwitch entries units addr
  else
    arrayData entries units addr

/-- A value that takes the units before position `stop`. -/
def within {α : Type} (units : List UInt16) (addr : Address) (stop : Nat) (a : α) :
    Except Fault α :=
  if stop ≤ units.length then .ok a else .error (.truncated addr)

section Within

variable {α β : Type} {units : List UInt16} {addr : Address} {stop : Nat}

theorem within_of_le (h : stop ≤ units.length) (a : α) : within units addr stop a = .ok a :=
  if_pos h

theorem within_of_not_le (h : ¬ stop ≤ units.length) (a : α) :
    within units addr stop a = .error (.truncated addr) :=
  if_neg h

/-- Units up to `stop` after units up to some earlier position. -/
theorem within_bind {earlier : Nat} {a : α} {b : β} {f : α → Fallible Fault β}
    (h : earlier ≤ stop)
    (hf : earlier ≤ units.length → f a = finished (within units addr stop b)) :
    (finished (within units addr earlier a) >>= f) = finished (within units addr stop b) := by
  by_cases he : earlier ≤ units.length
  · rw [within_of_le he]
    exact hf he
  · rw [within_of_not_le he, within_of_not_le fun hs => he (Nat.le_trans h hs)]
    rfl

theorem within_congr {a b : α} (h : stop ≤ units.length → a = b) :
    within units addr stop a = within units addr stop b := by
  rw [within, within]
  split
  · rw [h ‹_›]
  · rfl

theorem map_within (f : α → β) (a : α) :
    (within units addr stop a).map f = within units addr stop (f a) := by
  rw [within, within]
  split <;> rfl

end Within

theorem unitOr_eq (units : List UInt16) (addr : Address) (i : Nat) :
    unitOr units addr i = finished (within units addr (i + 1) (Instruction.unitAt units i)) := by
  rw [unitOr, Instruction.unitAt]
  cases h : units[i]? with
  | none =>
    have outside := List.getElem?_eq_none_iff.mp h
    rw [within_of_not_le (by omega)]
    rfl
  | some u =>
    obtain ⟨bound, -⟩ := List.getElem?_eq_some_iff.mp h
    rw [within_of_le bound]
    rfl

theorem readWide_eq (units : List UInt16) (addr : Address) {i : Nat} (h : i + 1 < 2 ^ 64) :
    readWide units addr i =
      finished (within units addr (i + 2) (signExtend 32 (Instruction.wideAt units i))) := by
  rw [readWide, unitOr_eq]
  refine within_bind (by omega) fun _ => ?_
  refine (lift_bind (add_eq h) _).trans ?_
  rw [unitOr_eq]
  refine within_bind (by omega) fun inside => ?_
  rw [wide_eq (Instruction.unitAt_lt units i) (Instruction.unitAt_lt units (i + 1)),
    within_of_le inside]
  rfl

/-- Reading numbers one after another asks for the units of all of them. -/
theorem mapM_within (units : List UInt16) (addr : Address) {start : Nat} (count : Nat)
    (hs : start ≤ units.length) :
    ((List.range count).mapM fun i => within units addr (start + 2 * i + 2)
        (signExtend 32 (Instruction.wideAt units (start + 2 * i)))) =
      within units addr (start + 2 * count) (Instruction.wideInts count (units.drop start)) := by
  induction count generalizing start with
  | zero => exact (within_of_le hs _).symm
  | succ count ih =>
    rw [List.range_succ_eq_map, List.mapM_cons, List.mapM_map]
    by_cases inside : start + 2 ≤ units.length
    · have later := ih inside
      have shift : ∀ i, start + 2 * (i + 1) = start + 2 + 2 * i := fun i => by omega
      simp only [Function.comp_def, Nat.succ_eq_add_one, shift, later, Nat.mul_zero, Nat.add_zero,
        within_of_le inside]
      rw [Instruction.wideInts_drop inside]
      exact map_within _ _
    -- the first number is not there, so neither are all of them
    · rw [within_of_not_le (by omega), within_of_not_le (by omega)]
      rfl

theorem readWides_eq (units : List UInt16) (addr : Address) {start count : Nat}
    (h : start + 2 * count < 2 ^ 64) (hs : start ≤ units.length) :
    readWides units addr start count =
      finished (within units addr (start + 2 * count)
        (Instruction.wideInts count (units.drop start))) := by
  rw [readWides, ← mapM_within units addr count hs]
  refine finished_mapM fun i hi => ?_
  have bound := List.mem_range.mp hi
  refine (lift_bind (mul_eq (by omega)) _).trans ?_
  refine (lift_bind (add_eq (by omega)) _).trans ?_
  exact readWide_eq units addr (by omega)

theorem packedSwitch_eq {entries : Nat} (h : entries < 2 ^ 16) (units : List UInt16)
    (addr : Address) :
    packedSwitch entries units addr = finished (within units addr (4 + 2 * entries)
      (⟨0, .packedSwitch (signExtend 32 (Instruction.wideAt units 2))
        (Instruction.wideInts entries (units.drop 4))⟩, 4 + 2 * entries)) := by
  rw [packedSwitch, readWide_eq units addr (by decide)]
  refine within_bind (by omega) fun four => ?_
  rw [readWides_eq units addr (by omega) four]
  refine within_bind (Nat.le_refl _) fun whole => ?_
  refine (lift_bind (mul_eq (by omega)) _).trans ?_
  refine (lift_bind (add_eq (by omega)) _).trans ?_
  rw [within_of_le whole, Nat.mul_comm _ 2]
  rfl

theorem sparseSwitch_eq {entries : Nat} (h : entries < 2 ^ 16) {units : List UInt16}
    (fixed : 2 ≤ units.length) (addr : Address) :
    sparseSwitch entries units addr = finished (within units addr (2 + 4 * entries)
      (⟨0, .sparseSwitch ((Instruction.wideInts entries (units.drop 2)).zip
        (Instruction.wideInts entries (units.drop (2 + 2 * entries))))⟩, 2 + 4 * entries)) := by
  rw [sparseSwitch, readWides_eq units addr (by omega) fixed]
  refine within_bind (by omega) fun middle => ?_
  refine (lift_bind (mul_eq (by omega)) _).trans ?_
  refine (lift_bind (add_eq (by omega)) _).trans ?_
  rw [readWides_eq units addr (by omega) middle]
  refine within_bind (by omega) fun inside => ?_
  refine (lift_bind (mul_eq (by omega)) _).trans ?_
  refine (lift_bind (add_eq (by omega)) _).trans ?_
  rw [within_of_le (by omega), Nat.mul_comm _ 4]
  rfl

theorem arrayData_eq {width : Nat} (h : width < 2 ^ 16) (units : List UInt16) (addr : Address) :
    arrayData width units addr =
      finished (within units addr (4 + (width * Instruction.wideAt units 2 + 1) / 2)
        (⟨0, .fillArrayData width (Instruction.wideAt units 2)⟩,
          4 + (width * Instruction.wideAt units 2 + 1) / 2)) := by
  rw [arrayData, unitOr_eq]
  refine within_bind (by omega) fun _ => ?_
  rw [unitOr_eq]
  refine within_bind (by omega) fun _ => ?_
  refine (lift_bind (wide_eq (Instruction.unitAt_lt units 2) (Instruction.unitAt_lt units 3))
    _).trans ?_
  have bytes : width * Instruction.wideAt units 2 < 2 ^ 16 * 2 ^ 32 :=
    Nat.mul_lt_mul'' h (Instruction.wideAt_lt units 2)
  show (match mul 64 width (Instruction.wideAt units 2) with
    | .error _ => _
    | .ok bytes => _) = _
  rw [mul_eq (by omega)]
  refine (lift_bind (add_eq (by omega)) _).trans ?_
  refine (lift_bind (add_eq (by omega)) _).trans ?_
  rw [within]
  split
  · rw [if_neg (by omega)]
    rfl
  · rw [if_pos (by omega)]
    rfl

theorem decodePayload_eq (kind : Nat) (units : List UInt16) (addr : Address) :
    decodePayload kind units addr =
      finished ((Instruction.decodePayload kind units addr).map fun i => (i, i.size)) := by
  have entries := Instruction.unitAt_lt units 1
  have whole : Instruction.decodePayload kind units addr =
      within units addr (Instruction.payloadSize kind units)
        ⟨0, Instruction.payloadOf kind units⟩ := Instruction.decodePayload_eq kind units addr
  rw [whole, map_within, within_congr fun inside =>
    congrArg (Prod.mk _) (Instruction.size_payloadOf inside), decodePayload, unitOr_eq]
  simp only [Instruction.payloadSize, Instruction.payloadOf]
  by_cases h1 : kind = 1
  · simp only [if_pos h1]
    exact within_bind (by omega) fun _ => packedSwitch_eq entries units addr
  by_cases h2 : kind = 2
  · simp only [if_neg h1, if_pos h2]
    exact within_bind (by omega) fun two => sparseSwitch_eq entries two addr
  · simp only [if_neg h1, if_neg h2]
    exact within_bind (by omega) fun _ => arrayData_eq entries units addr

/-! ## Instructions -/

/-- The instruction at the front of `units`, and its size. -/
def decode (units : List UInt16) (addr : Address) : Fallible Fault (Instruction × Nat) := do
  let first ← unitOr units addr 0
  let opcode := first % 256
  let hi ← shiftRight 16 first 8
  if opcode = 0 ∧ 1 ≤ hi ∧ hi ≤ 3 then
    decodePayload hi units addr
  else
    match ← describe opcode with
    | none => throw (.unknownOpcode opcode addr)
    | some description =>
      let size := description.format.units
      if units.length < size then
        throw (.truncated addr)
      let operands ← operandsOf description.format opcode hi units addr
      return (⟨opcode, operands⟩, size)

/-- Instructions from position `pos` on, `fuel` of them at most. -/
def sweepFrom (units : List UInt16) : Nat → Nat → Fallible Fault (List Located)
  | 0, _ => return []
  | fuel + 1, pos =>
    if pos < units.length then do
      let rest ← sliceFrom units pos
      let (instr, size) ← decode rest pos
      let next ← add 64 pos size
      let later ← sweepFrom units fuel next
      return ⟨pos, instr⟩ :: later
    else
      return []

/-- All instructions of a method; there are no more than units. -/
def sweep (units : List UInt16) : Fallible Fault (List Located) :=
  sweepFrom units units.length Address.entry

theorem decode_eq (units : List UInt16) (addr : Address) :
    decode units addr =
      finished ((Instruction.decode units addr).map fun i => (i, i.size)) := by
  rw [decode, unitOr_eq]
  cases units with
  | nil => rfl
  | cons first rest =>
    have front : Instruction.unitAt (first :: rest) 0 = first.toNat := rfl
    have small := UInt16.toNat_lt first
    rw [within_of_le (by simp), front, finished_ok, pure_bind, Instruction.decode]
    refine (lift_bind (shiftRight_eq (by decide)) _).trans ?_
    simp only [Nat.reducePow, describe_eq, lift_ok, pure_bind]
    by_cases payload : first.toNat % 256 = 0 ∧ 1 ≤ first.toNat / 256 ∧ first.toNat / 256 ≤ 3
    · rw [if_pos payload, if_pos payload]
      exact decodePayload_eq _ _ _
    · rw [if_neg payload, if_neg payload]
      cases known : Opcode.describe? (first.toNat % 256) with
      | none => rfl
      | some description =>
        simp only [Instruction.fits_iff]
        by_cases short : (first :: rest).length < description.format.units
        · rw [if_pos short, if_neg (Nat.not_le.mpr short)]
          rfl
        · have fits := Nat.le_of_not_lt short
          rw [if_neg short, if_pos fits, operandsOf_eq (by omega) fits]
          cases ho : Instruction.operandsOf description.format (first.toNat % 256)
              (first.toNat / 256) (first :: rest) addr with
          | error e => rfl
          | ok operands =>
            -- the size by the opcode is that of the operands, as these are no payload
            have layout := (Instruction.operands_of_layout (by omega) ho).1
            have size := Instruction.size_of_layout layout known
            rw [← size]
            rfl

/-- Each step takes at least one unit and ends inside, so the position is a word and the fuel
lasts. -/
theorem sweepFrom_eq {units : List UInt16} (h : units.length < 2 ^ 32) {fuel pos : Nat}
    (hp : pos ≤ units.length) (hf : units.length ≤ pos + fuel) :
    sweepFrom units fuel pos =
      finished (Instruction.sweepFrom 0 pos (units.drop pos)) := by
  induction fuel generalizing pos with
  | zero =>
    -- the fuel is used up at the end of the units only
    obtain rfl : pos = units.length := Nat.le_antisymm hp hf
    rw [List.drop_length]
    rfl
  | succ fuel ih =>
    rw [sweepFrom]
    split
    · rename_i inside
      have more : units.drop pos ≠ [] := by simpa using inside
      refine (lift_bind (sliceFrom_eq hp) _).trans ?_
      rw [Instruction.sweepFrom_front more, decode_eq]
      cases hd : Instruction.decode (units.drop pos) pos with
      | error e => rfl
      | ok instr =>
        have bound := (Instruction.decode_inside hd).1
        have step := instr.size_pos
        rw [List.length_drop] at bound
        refine (lift_bind (add_eq (by omega)) _).trans ?_
        rw [ih (by omega) (by omega)]
        rw [← List.drop_drop]
        exact finished_bind fun later _ => rfl
    · rename_i outside
      rw [List.drop_of_length_le (Nat.le_of_not_lt outside)]
      rfl

theorem sweep_eq {units : List UInt16} (h : units.length < 2 ^ 32) :
    sweep units = finished (Instruction.sweep units) :=
  sweepFrom_eq h (Nat.zero_le _) (Nat.le_add_left _ _)

end Machine

end PermissionAudit
