import PermissionAudit.Proofs.Dex.Sweep
import PermissionAudit.Proofs.Machine.Basic

/-!
What holds of decoded instructions: they end inside the units they are decoded
from, and the distances they name are numbers of 32 bits.
-/

namespace PermissionAudit

/-- Distances to other instructions. -/
def Operands.distances : Operands → List Int
  | .branch distance | .regBranch _ distance | .regsBranch _ _ distance => [distance]
  | .packedSwitch _ targets => targets
  | .sparseSwitch cases => cases.map (·.2)
  | _ => []

namespace Instruction

/-- Where control may go from an instruction by its own operands. -/
theorem distance_of_flow {i : Instruction} {d : Int}
    (h : i.flow = .goto d ∨ i.flow = .branch d ∨ i.flow = .switch d) :
    d ∈ i.operands.distances := by
  obtain ⟨opcode, operands⟩ := i
  rw [flow] at h
  cases operands <;> simp [isPayload, Operands.isPayload, Operands.distances] at h ⊢ <;> grind

theorem distance_of_switchTargets {i : Instruction} {targets : List Int}
    (h : i.switchTargets? = some targets) : targets = i.operands.distances := by
  obtain ⟨opcode, operands⟩ := i
  cases operands <;> simp_all [switchTargets?, Operands.distances]

open Machine (IsSigned)

theorem unitAt_lt (units : List UInt16) (i : Nat) : unitAt units i < 2 ^ 16 := UInt16.toNat_lt _

theorem wideAt_lt (units : List UInt16) (i : Nat) : wideAt units i < 2 ^ 32 := by
  have lo := unitAt_lt units i
  have hi := unitAt_lt units (i + 1)
  rw [wideAt]
  omega

theorem fits_iff {size : Nat} {units : List UInt16} : fits size units ↔ size ≤ units.length := by
  rw [fits, decide_eq_true_iff, List.length_take]
  omega

/-- A nonnegative number below half the range is kept, the others go below zero. -/
theorem isSigned_signExtend {bits n : Nat} (hb : 0 < bits) (h : n < 2 ^ bits) :
    IsSigned bits (signExtend bits n) := by
  obtain ⟨width, rfl⟩ := Nat.exists_eq_succ_of_ne_zero (Nat.ne_of_gt hb)
  have double : 2 ^ (width + 1) = 2 * 2 ^ width := Nat.pow_succ'
  rw [signExtend, IsSigned]
  simp only [Nat.succ_eq_add_one, Nat.add_sub_cancel, Nat.pow_eq] at h ⊢
  split <;> omega

/-- The high digit of a byte with its sign is the byte with its sign, divided. -/
theorem signExtend_digit {n : Nat} (h : n < 256) :
    signExtend 8 n / (2 ^ 4 : Nat) = signExtend 4 (n / 16) := by
  simp only [signExtend, Nat.pow_eq]
  split <;> split <;> omega

theorem wideInts_drop {units : List UInt16} {start : Nat} (h : start + 2 ≤ units.length)
    (count : Nat) :
    wideInts (count + 1) (units.drop start) =
      signExtend 32 (wideAt units start) :: wideInts count (units.drop (start + 2)) := by
  have first : units.drop start = units[start] :: units.drop (start + 1) :=
    List.drop_eq_getElem_cons (by omega)
  have second : units.drop (start + 1) = units[start + 1] :: units.drop (start + 2) :=
    List.drop_eq_getElem_cons (by omega)
  rw [first, second, wideInts, wideAt, unitAt, unitAt, List.getElem?_eq_getElem (by omega),
    List.getElem?_eq_getElem (by omega)]
  rfl

theorem length_wideInts {count : Nat} {units : List UInt16} (h : 2 * count ≤ units.length) :
    (wideInts count units).length = count := by
  induction count generalizing units with
  | zero => rfl
  | succ count ih =>
    match units, h with
    | lo :: hi :: rest, h =>
      rw [wideInts, List.length_cons, ih]
      simp only [List.length_cons] at h
      omega

/-- The size of a payload that is there as a whole is the size it states. -/
theorem size_payloadOf {kind : Nat} {units : List UInt16}
    (h : payloadSize kind units ≤ units.length) :
    size ⟨0, payloadOf kind units⟩ = payloadSize kind units := by
  have room (start : Nat) (hs : start + 2 * unitAt units 1 ≤ units.length) :
      (wideInts (unitAt units 1) (units.drop start)).length = unitAt units 1 := by
    refine length_wideInts ?_
    rw [List.length_drop]
    omega
  rw [payloadSize] at h
  rw [payloadSize, payloadOf]
  by_cases h1 : kind = 1
  · simp only [if_pos h1] at h ⊢
    show 4 + 2 * (wideInts (unitAt units 1) (units.drop 4)).length = _
    rw [room 4 h]
  · by_cases h2 : kind = 2
    · simp only [if_neg h1, if_pos h2] at h ⊢
      show 2 + 4 * (List.zip (wideInts (unitAt units 1) (units.drop 2))
        (wideInts (unitAt units 1) (units.drop (2 + 2 * unitAt units 1)))).length = _
      rw [List.length_zip, room 2 (by omega), room _ (by omega), Nat.min_self]
    · simp only [if_neg h1, if_neg h2]
      rfl

/-- The size of an instruction that is not a payload is that of its layout. -/
theorem size_of_layout {opcode : Nat} {operands : Operands} {description : Opcode.Description}
    (h : operands.isPayload = false) (hd : Opcode.describe? opcode = some description) :
    size ⟨opcode, operands⟩ = description.format.units := by
  have layout : ((Opcode.describe? opcode).map (·.format.units)).getD 1 =
      description.format.units := by
    rw [hd]
    rfl
  cases operands <;> first | exact layout | cases h

/-- Operands of a layout are not a payload, and their distances are short. -/
theorem operands_of_layout {format : Opcode.Format} {opcode hi : Nat} {units : List UInt16}
    {addr : Address} {operands : Operands} (hh : hi < 256)
    (h : operandsOf format opcode hi units addr = .ok operands) :
    operands.isPayload = false ∧ ∀ d ∈ operands.distances, IsSigned 32 d := by
  have byte : IsSigned 32 (signExtend 8 hi) :=
    (isSigned_signExtend (by decide) hh).mono (by decide) (by decide)
  have one (i : Nat) : IsSigned 32 (signExtend 16 (unitAt units i)) :=
    (isSigned_signExtend (by decide) (unitAt_lt units i)).mono (by decide) (by decide)
  have two (i : Nat) : IsSigned 32 (signExtend 32 (wideAt units i)) :=
    isSigned_signExtend (by decide) (wideAt_lt units i)
  cases format
  case f10t =>
    cases h
    exact ⟨rfl, fun d hd => List.mem_singleton.mp hd ▸ byte⟩
  case f20t | f21t | f22t =>
    cases h
    exact ⟨rfl, fun d hd => List.mem_singleton.mp hd ▸ one 1⟩
  case f30t | f31t =>
    cases h
    exact ⟨rfl, fun d hd => List.mem_singleton.mp hd ▸ two 1⟩
  case f35c | f45cc =>
    simp only [operandsOf, Except.map] at h
    split at h
    · cases h
    · cases h
      exact ⟨rfl, fun d hd => nomatch hd⟩
  all_goals
    cases h
    exact ⟨rfl, fun d hd => nomatch hd⟩

theorem isSigned_of_mem_wideInts {count : Nat} {units : List UInt16} {d : Int}
    (h : d ∈ wideInts count units) : IsSigned 32 d := by
  induction count generalizing units with
  | zero => simp [wideInts] at h
  | succ count ih =>
    match units, h with
    | lo :: hi :: rest, h =>
      rw [wideInts] at h
      rcases List.mem_cons.mp h with rfl | h
      · have hl := UInt16.toNat_lt lo
        have hh := UInt16.toNat_lt hi
        exact isSigned_signExtend (by decide) (by omega)
      · exact ih h

theorem isSigned_of_payload {kind : Nat} {units : List UInt16} {d : Int}
    (h : d ∈ (payloadOf kind units).distances) : IsSigned 32 d := by
  rw [payloadOf] at h
  split at h
  · exact isSigned_of_mem_wideInts h
  · split at h
    · obtain ⟨entry, he, rfl⟩ := List.mem_map.mp h
      exact isSigned_of_mem_wideInts (List.of_mem_zip he).2
    · nomatch h

theorem payloadFixed_le_payloadSize (kind : Nat) (units : List UInt16) :
    payloadFixed kind ≤ payloadSize kind units := by
  rw [payloadFixed, payloadSize]
  split <;> split <;> (try split) <;> omega

/-- A payload is decoded when all its units are there: its size is at least that of the part it
is read off. -/
theorem decodePayload_eq (kind : Nat) (units : List UInt16) (addr : Address) :
    decodePayload kind units addr =
      if payloadSize kind units ≤ units.length then .ok ⟨0, payloadOf kind units⟩
      else .error (.truncated addr) := by
  have fixed := payloadFixed_le_payloadSize kind units
  rw [decodePayload]
  refine if_congr ?_ rfl rfl
  rw [Bool.and_eq_true, fits_iff, fits_iff]
  exact ⟨fun both => both.2, fun whole => ⟨Nat.le_trans fixed whole, whole⟩⟩

/-- A decoded instruction lies inside the units, and its distances are short. -/
theorem decode_inside {units : List UInt16} {addr : Address} {i : Instruction}
    (h : decode units addr = .ok i) :
    i.size ≤ units.length ∧ ∀ d ∈ i.operands.distances, IsSigned 32 d := by
  cases units with
  | nil => cases h
  | cons first rest =>
    have small := UInt16.toNat_lt first
    simp only [decode] at h
    split at h
    -- a payload, which was asked for as a whole
    · rw [decodePayload_eq] at h
      split at h
      · cases h
        rename_i whole
        exact ⟨size_payloadOf whole ▸ whole, fun d => isSigned_of_payload⟩
      · cases h
    · split at h
      · cases h
      -- an instruction whose opcode gives the layout
      · rename_i description known
        split at h
        · rename_i fits
          cases ho : operandsOf description.format (first.toNat % 256) (first.toNat / 256)
              (first :: rest) addr with
          | error e => simp [ho, Except.map] at h
          | ok operands =>
            obtain rfl : (⟨first.toNat % 256, operands⟩ : Instruction) = i := by
              simpa [ho, Except.map] using h
            obtain ⟨layout, short⟩ := operands_of_layout (by omega) ho
            exact ⟨size_of_layout layout known ▸ fits_iff.mp fits, short⟩
        · cases h

/-- Units that are passed over. -/
theorem sweepFrom_skip {skip : Nat} {units : List UInt16} (h : skip ≤ units.length)
    (addr : Address) :
    sweepFrom skip addr units = sweepFrom 0 (addr + skip) (units.drop skip) := by
  induction skip generalizing units addr with
  | zero => rfl
  | succ skip ih =>
    match units, h with
    | unit :: rest, h =>
      rw [sweepFrom, ih (by simpa using h), Nat.add_assoc, Nat.add_comm 1 skip]
      rfl

/-- The instruction at the front, then the sweep behind it. -/
theorem sweepFrom_front {units : List UInt16} (h : units ≠ []) (addr : Address) :
    sweepFrom 0 addr units = do
      let instr ← decode units addr
      let later ← sweepFrom 0 (addr + instr.size) (units.drop instr.size)
      return ⟨addr, instr⟩ :: later := by
  obtain ⟨unit, rest, rfl⟩ := List.exists_cons_of_ne_nil h
  rw [sweepFrom]
  cases hd : decode (unit :: rest) addr with
  | error e => rfl
  | ok instr =>
    have bound := (decode_inside hd).1
    obtain ⟨more, hm⟩ := Nat.exists_eq_succ_of_ne_zero (Nat.ne_of_gt instr.size_pos)
    rw [List.length_cons, hm] at bound
    show (sweepFrom (instr.size - 1) (addr + 1) rest >>= _) =
      (sweepFrom 0 (addr + instr.size) ((unit :: rest).drop instr.size) >>= _)
    rw [hm, Nat.succ_sub_one, sweepFrom_skip (Nat.le_of_succ_le_succ bound), List.drop_succ_cons,
      Nat.add_assoc, Nat.add_comm 1 more]

end Instruction

open Machine (IsSigned)

/-- Instructions whose numbers are small: they end at an address of 32 bits, and the distances
they name have 32 bits. -/
structure Located.IsShort (l : Located) : Prop where
  nextAddr_lt : l.nextAddr < 2 ^ 32
  isSigned : ∀ d ∈ l.instr.operands.distances, IsSigned 32 d

theorem Instruction.inside_of_sweepFrom {skip : Nat} {addr : Address} {units : List UInt16}
    {instrs : List Located} (h : sweepFrom skip addr units = .ok instrs) {l : Located}
    (hl : l ∈ instrs) :
    l.nextAddr ≤ addr + units.length ∧ ∀ d ∈ l.instr.operands.distances, IsSigned 32 d := by
  induction units generalizing skip addr instrs with
  | nil =>
    obtain rfl := Except.ok.inj h
    nomatch hl
  | cons unit rest ih =>
    rw [List.length_cons, Nat.add_comm rest.length, ← Nat.add_assoc]
    cases skip with
    | succ skip => exact ih h hl
    | zero =>
      rw [sweepFrom, bind_eq_ok_iff] at h
      obtain ⟨instr, hi, h⟩ := h
      rw [bind_eq_ok_iff] at h
      obtain ⟨later, hlater, h⟩ := h
      obtain rfl := Except.ok.inj h
      rcases List.mem_cons.mp hl with rfl | hl
      · obtain ⟨bound, short⟩ := decode_inside hi
        refine ⟨?_, short⟩
        calc addr + instr.size ≤ addr + (rest.length + 1) := Nat.add_le_add_left bound addr
          _ = addr + 1 + rest.length := by rw [Nat.add_comm rest.length, Nat.add_assoc]
      · exact ih hlater hl

theorem Dex.isShort_of_codeAt {b : Bytes} {offset : Nat} {code : Code}
    (h : Dex.codeAt b offset = .ok code) {l : Located} (hl : l ∈ code.instrs) : l.IsShort := by
  obtain ⟨units, few, hs⟩ := Dex.sweep_of_codeAt h
  obtain ⟨bound, short⟩ := Instruction.inside_of_sweepFrom hs hl
  rw [Address.entry, Nat.zero_add] at bound
  exact ⟨Nat.lt_of_le_of_lt bound few, short⟩

theorem Dex.isShort_of_code {dex : Dex} {method : Dex.EncodedMethod} {code : Code}
    (h : dex.code method = .ok (some code)) {l : Located} (hl : l ∈ code.instrs) : l.IsShort := by
  obtain ⟨offset, hc⟩ := Dex.codeAt_of_code h
  exact Dex.isShort_of_codeAt hc hl

end PermissionAudit
