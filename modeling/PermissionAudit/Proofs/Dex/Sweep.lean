import Mathlib.Algebra.Order.Ring.Int
import PermissionAudit.Dex.Code
import PermissionAudit.Proofs.Sequence.Checked

/-!
Addresses in decoded code. A sweep goes forward through the units, so no two
instructions of a method have one address.
-/

namespace PermissionAudit

/-- Instructions lie behind the units that are passed over, in order of their addresses. -/
theorem Instruction.addresses_of_sweepFrom {skip : Nat} {addr : Address} {units : List UInt16}
    {instrs : List Located} (h : sweepFrom skip addr units = .ok instrs) :
    (∀ l ∈ instrs, addr + skip ≤ l.addr) ∧ instrs.Pairwise fun k l => k.addr < l.addr := by
  induction units generalizing skip addr instrs with
  | nil =>
    obtain rfl := Except.ok.inj h
    simp
  | cons unit rest ih =>
    cases skip with
    | succ skip =>
      obtain ⟨behind, sorted⟩ := ih h
      refine ⟨fun l hl => ?_, sorted⟩
      calc addr + (skip + 1) = addr + 1 + skip := Nat.add_right_comm addr skip 1
        _ ≤ l.addr := behind l hl
    | zero =>
      rw [sweepFrom, bind_eq_ok_iff] at h
      obtain ⟨instr, -, h⟩ := h
      rw [bind_eq_ok_iff] at h
      obtain ⟨later, hlater, h⟩ := h
      obtain rfl := Except.ok.inj h
      obtain ⟨behind, sorted⟩ := ih hlater
      -- the recursion starts one unit further on, whatever the size of the instruction
      have after : ∀ l ∈ later, addr < l.addr := fun l hl =>
        Nat.le_trans (Nat.le_add_right _ _) (behind l hl)
      refine ⟨fun l hl => ?_, List.pairwise_cons.mpr ⟨after, sorted⟩⟩
      rcases List.mem_cons.mp hl with rfl | hl
      · exact Nat.le_refl _
      · exact Nat.le_of_lt (after l hl)

theorem Bytes.length_units_le (b : Bytes) : 2 * (units b).length ≤ b.length := by
  fun_induction units b with
  | case1 lo hi rest ih =>
    simp only [List.length_cons]
    omega
  | case2 => simp

theorem Bytes.u32At_lt (b : Bytes) (i : Nat) : u32At b i < 2 ^ 32 := by
  have byte (i : Nat) : byteAt b i < 256 := UInt8.toNat_lt _
  have h0 := byte i
  have h1 := byte (i + 1)
  have h2 := byte (i + 2)
  have h3 := byte (i + 2 + 1)
  rw [u32At, u16At, u16At]
  omega

theorem Code.length_lt_of_readUnits {b : Bytes} {registers ins outs : Nat} {units : List UInt16}
    (h : readUnits b = .ok (registers, ins, outs, units)) : units.length < 2 ^ 32 := by
  rw [readUnits] at h
  split at h
  · cases h
  · obtain ⟨-, -, -, rfl⟩ := by simpa using h
    have count := Bytes.u32At_lt b 12
    have bytes := Bytes.length_units_le ((b.drop fixedSize).take (2 * Bytes.u32At b 12))
    have few := List.length_take_le (2 * Bytes.u32At b 12) (b.drop fixedSize)
    omega

/-- Code is a sweep over fewer than `2 ^ 32` units. -/
theorem Dex.sweep_of_codeAt {b : Bytes} {offset : Nat} {code : Code}
    (h : Dex.codeAt b offset = .ok code) :
    ∃ units : List UInt16, units.length < 2 ^ 32 ∧ Instruction.sweep units = .ok code.instrs := by
  rw [Dex.codeAt, bind_eq_ok_iff] at h
  obtain ⟨bytes, -, h⟩ := h
  split at h
  · cases h
  · rename_i units hu
    split at h
    · cases h
    · rename_i instrs hs
      obtain rfl := Except.ok.inj h
      exact ⟨units, Code.length_lt_of_readUnits hu, hs⟩

theorem Dex.codeAt_of_code {dex : Dex} {method : Dex.EncodedMethod} {code : Code}
    (h : dex.code method = .ok (some code)) : ∃ offset, Dex.codeAt dex.raw offset = .ok code := by
  rw [Dex.code] at h
  cases ho : method.codeOffset with
  | none => simp [ho] at h
  | some offset =>
    simp only [ho, map_eq_ok_iff, Option.some.injEq] at h
    obtain ⟨decoded, hd, rfl⟩ := h
    exact ⟨offset, hd⟩

theorem Dex.addresses_of_code {dex : Dex} {method : Dex.EncodedMethod} {code : Code}
    (h : dex.code method = .ok (some code)) : code.instrs.Pairwise fun k l => k.addr < l.addr := by
  obtain ⟨offset, hc⟩ := Dex.codeAt_of_code h
  obtain ⟨units, -, hs⟩ := Dex.sweep_of_codeAt hc
  exact (Instruction.addresses_of_sweepFrom hs).2

end PermissionAudit
