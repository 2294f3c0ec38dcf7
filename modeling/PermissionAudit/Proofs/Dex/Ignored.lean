import PermissionAudit.Proofs.Dex.Delimited

/-!
What decoding keeps of the units. An instruction is written in digits of four bits,
and its layout passes over some of them: a high byte without an operand, places for
registers that a list does not name, the contents of array data. All other digits can
be read off the decoded instruction, so two ways of writing one instruction differ in
the digits that are passed over; and these may be changed at will, except that a high
byte must not turn a `nop` into the head of a payload.
-/

namespace PermissionAudit

/-- Whether a layout passes over a digit of a unit, digits being counted from the low end. Of a
list with `count` registers only so many places are read; the fifth is in the first unit. -/
def Opcode.Format.ignores (format : Opcode.Format) (count unit digit : Nat) : Bool :=
  match format with
  | .f10x | .f20t | .f30t | .f32x => unit = 0 && 2 ≤ digit
  | .f35c | .f45cc => (unit = 2 && count ≤ digit) || (unit = 0 && digit = 2 && count < 5)
  | _ => false

/-- The registers of a list form. -/
def Operands.listed : Operands → List Register
  | .list args _ | .polyList args _ _ => args
  | _ => []

namespace Instruction

/-- Whether decoding passes over a digit of a unit of the instruction. -/
def ignores (i : Instruction) (unit digit : Nat) : Bool :=
  match i.operands with
  | .packedSwitch _ _ | .sparseSwitch _ => false
  | .fillArrayData _ _ => 4 ≤ unit
  | operands =>
    (Opcode.describe? i.opcode).any (·.format.ignores operands.listed.length unit digit)

/-- A digit of the unit at a position. -/
def digitAt (units : List UInt16) (unit digit : Nat) : Nat := unitAt units unit / 16 ^ digit % 16

/-- The units of the instruction agree in all digits that it does not pass over. -/
def SameDigits (i : Instruction) (u v : List UInt16) : Prop :=
  ∀ unit < i.size, ∀ digit < 4, i.ignores unit digit = false →
    digitAt u unit digit = digitAt v unit digit

instance (i : Instruction) (u v : List UInt16) : Decidable (i.SameDigits u v) :=
  inferInstanceAs (Decidable (∀ unit < i.size, ∀ digit < 4, _ → _))

variable {u v : List UInt16}

/-! ## Numbers and their digits -/

theorem digitAt_congr {unit : Nat} (h : unitAt u unit = unitAt v unit) (digit : Nat) :
    digitAt u unit digit = digitAt v unit digit := by
  rw [digitAt, h, digitAt]

theorem unitAt_eq_of_digits {unit : Nat}
    (h : ∀ digit < 4, digitAt u unit digit = digitAt v unit digit) :
    unitAt u unit = unitAt v unit := by
  have hu := unitAt_lt u unit
  have hv := unitAt_lt v unit
  have h0 := h 0 (by decide)
  have h1 := h 1 (by decide)
  have h2 := h 2 (by decide)
  have h3 := h 3 (by decide)
  simp only [digitAt, Nat.reducePow] at h0 h1 h2 h3
  omega

/-- The low byte of a unit shows its two lower digits. -/
theorem digitAt_of_low {unit digit : Nat} (h : unitAt u unit % 256 = unitAt v unit % 256)
    (hd : digit < 2) : digitAt u unit digit = digitAt v unit digit := by
  obtain rfl | rfl : digit = 0 ∨ digit = 1 := by omega
  · simp only [digitAt, Nat.reducePow]
    omega
  · simp only [digitAt, Nat.reducePow]
    omega

theorem signExtend_inj {bits m n : Nat} (hb : 0 < bits) (hm : m < 2 ^ bits) (hn : n < 2 ^ bits)
    (h : signExtend bits m = signExtend bits n) : m = n := by
  obtain ⟨width, rfl⟩ := Nat.exists_eq_succ_of_ne_zero (Nat.ne_of_gt hb)
  simp only [signExtend, Nat.succ_eq_add_one, Nat.add_sub_cancel, Nat.pow_eq] at h
  split at h <;> split at h <;> omega

theorem wideAt_inj {start : Nat} (h : wideAt u start = wideAt v start) :
    unitAt u start = unitAt v start ∧ unitAt u (start + 1) = unitAt v (start + 1) := by
  have hu := unitAt_lt u start
  have hv := unitAt_lt v start
  rw [wideAt, wideAt] at h
  omega

theorem signExtend_unitAt_inj {unit : Nat}
    (h : signExtend 16 (unitAt u unit) = signExtend 16 (unitAt v unit)) :
    unitAt u unit = unitAt v unit :=
  signExtend_inj (by decide) (unitAt_lt u unit) (unitAt_lt v unit) h

theorem signExtend_wideAt_inj {start : Nat}
    (h : signExtend 32 (wideAt u start) = signExtend 32 (wideAt v start)) :
    unitAt u start = unitAt v start ∧ unitAt u (start + 1) = unitAt v (start + 1) :=
  wideAt_inj (signExtend_inj (by decide) (wideAt_lt u start) (wideAt_lt v start) h)

/-! ## Lists of registers -/

section Lists

variable {hi regs hi' regs' : Nat} {a b : Address} {args : List Register}

/-- The places for registers, the fifth of which is in the first unit. -/
def places (hi regs : Nat) : List Register :=
  [regs % 16, regs / 16 % 16, regs / 256 % 16, regs / 4096, hi % 16]

theorem argumentList_eq_ok_iff :
    argumentList hi regs a = .ok args ↔ hi / 16 ≤ 5 ∧ args = (places hi regs).take (hi / 16) := by
  rw [argumentList]
  by_cases many : 5 < hi / 16
  · rw [if_pos many]
    constructor
    · intro h
      cases h
    · intro h
      exact absurd h.1 (Nat.not_le_of_lt many)
  · rw [if_neg many]
    constructor
    · intro h
      exact ⟨Nat.le_of_not_lt many, (Except.ok.inj h).symm⟩
    · intro h
      rw [h.2]
      rfl

theorem length_of_argumentList (h : argumentList hi regs a = .ok args) :
    args.length = hi / 16 := by
  obtain ⟨few, rfl⟩ := argumentList_eq_ok_iff.mp h
  rw [List.length_take]
  exact Nat.min_eq_left few

theorem getElem?_places (hr : regs < 2 ^ 16) {digit : Nat} (hd : digit < 4) :
    (places hi regs)[digit]? = some (regs / 16 ^ digit % 16) := by
  obtain rfl | rfl | rfl | rfl : digit = 0 ∨ digit = 1 ∨ digit = 2 ∨ digit = 3 := by omega
  · simp [places]
  · simp [places]
  · simp [places]
  · have top : regs / 4096 % 16 = regs / 4096 := Nat.mod_eq_of_lt (by omega)
    simp [places, top]

theorem take_eq_take_iff_getElem? {α : Type} {xs ys : List α} {n : Nat} :
    xs.take n = ys.take n ↔ ∀ k < n, xs[k]? = ys[k]? := by
  constructor
  · intro h k hk
    rw [← List.getElem?_take_of_lt hk, h, List.getElem?_take_of_lt hk]
  · intro h
    apply List.ext_getElem?
    intro k
    rw [List.getElem?_take, List.getElem?_take]
    split
    · exact h k ‹_›
    · rfl

/-- A list is written in other units just if they agree in the places it uses. -/
theorem argumentList_again_iff (hr : regs < 2 ^ 16) (hr' : regs' < 2 ^ 16)
    (h : argumentList hi regs a = .ok args) :
    argumentList hi' regs' b = .ok args ↔
      hi / 16 = hi' / 16 ∧ (args.length = 5 → hi % 16 = hi' % 16) ∧
        ∀ digit < 4, digit < args.length → regs / 16 ^ digit % 16 = regs' / 16 ^ digit % 16 := by
  have count := length_of_argumentList h
  obtain ⟨few, taken⟩ := argumentList_eq_ok_iff.mp h
  constructor
  · intro h'
    have count' : hi / 16 = hi' / 16 := count.symm.trans (length_of_argumentList h')
    obtain ⟨-, taken'⟩ := argumentList_eq_ok_iff.mp h'
    have place := take_eq_take_iff_getElem?.mp (taken.symm.trans (count' ▸ taken'))
    refine ⟨count', fun five => ?_, fun digit hd hk => ?_⟩
    · exact Option.some.inj (place 4 (by omega))
    · have same := place digit (count ▸ hk)
      rw [getElem?_places hr hd, getElem?_places hr' hd] at same
      exact Option.some.inj same
  · rintro ⟨count', fifth, used⟩
    rw [argumentList_eq_ok_iff, ← count']
    refine ⟨few, taken.trans (take_eq_take_iff_getElem?.mpr fun k hk => ?_)⟩
    rcases Nat.lt_or_ge k 4 with hd | hd
    · rw [getElem?_places hr hd, getElem?_places hr' hd, used k hd (count ▸ hk)]
    · obtain rfl : k = 4 := by omega
      exact congrArg some (fifth (by omega))

end Lists

/-! ## Layouts -/

section Layouts

variable {format : Opcode.Format} {opcode : Nat} {a b : Address} {operands : Operands}

/-- The units after the first agree, of `count` units in all. -/
def AgreeAfterFirst (u v : List UInt16) (count : Nat) : Prop :=
  ∀ unit, 1 ≤ unit → unit < count → unitAt u unit = unitAt v unit

theorem agreeAfterFirst_one : AgreeAfterFirst u v 1 := by
  intro unit h1 h2
  omega

theorem AgreeAfterFirst.succ {count : Nat} (h : AgreeAfterFirst u v count)
    (next : unitAt u count = unitAt v count) : AgreeAfterFirst u v (count + 1) := by
  intro unit h1 h2
  rcases Nat.lt_succ_iff_lt_or_eq.mp h2 with h2 | rfl
  · exact h unit h1 h2
  · exact next

theorem agreeAfterFirst_two (h : unitAt u 1 = unitAt v 1) : AgreeAfterFirst u v 2 :=
  agreeAfterFirst_one.succ h

theorem agreeAfterFirst_three (h : unitAt u 1 = unitAt v 1 ∧ unitAt u 2 = unitAt v 2) :
    AgreeAfterFirst u v 3 :=
  (agreeAfterFirst_two h.1).succ h.2

theorem eq_of_mod_of_div {m n : Nat} (base : Nat) (low : m % base = n % base)
    (high : m / base = n / base) : m = n := by
  rw [← Nat.mod_add_div m base, low, high, Nat.mod_add_div]

/-- The units after the first agree, and the high byte of the first does unless the layout passes
over it. -/
def Shown (format : Opcode.Format) (hi hi' : Nat) (u v : List UInt16) : Prop :=
  (format.ignores 0 0 2 = false → hi = hi') ∧ AgreeAfterFirst u v format.units

section Families

variable {hi hi' : Nat} (hu : operandsOf format opcode hi u a = .ok operands)
  (hv : operandsOf format opcode hi' v b = .ok operands)

include hu hv

/-- Operands within the first unit. -/
theorem shown_of_one_unit (size : format.units = 1) (hh : hi < 256) (hh' : hi' < 256) :
    Shown format hi hi' u v := by
  have same := hu.trans hv.symm
  cases format with
  | f10x => exact ⟨nofun, agreeAfterFirst_one⟩
  | f12x =>
    obtain ⟨h1, h2⟩ := Operands.regs2.inj (Except.ok.inj same)
    exact ⟨fun _ => eq_of_mod_of_div 16 h1 h2, agreeAfterFirst_one⟩
  | f11n =>
    obtain ⟨h1, h2⟩ := Operands.literal.inj (Except.ok.inj same)
    have h2 := signExtend_inj (by decide) (by omega) (by omega) h2
    exact ⟨fun _ => eq_of_mod_of_div 16 h1 h2, agreeAfterFirst_one⟩
  | f11x => exact ⟨fun _ => Operands.reg.inj (Except.ok.inj same), agreeAfterFirst_one⟩
  | f10t =>
    have h1 := Operands.branch.inj (Except.ok.inj same)
    exact ⟨fun _ => signExtend_inj (by decide) hh hh' h1, agreeAfterFirst_one⟩
  | _ => exact absurd size (by decide)

/-- A second unit that is a register, an index or a number of its own. -/
theorem shown_of_two_units (size : format.units = 2) : Shown format hi hi' u v := by
  have same := hu.trans hv.symm
  cases format with
  | f20t =>
    have h1 := signExtend_unitAt_inj (Operands.branch.inj (Except.ok.inj same))
    exact ⟨nofun, agreeAfterFirst_two h1⟩
  | f22x =>
    obtain ⟨h1, h2⟩ := Operands.regs2.inj (Except.ok.inj same)
    exact ⟨fun _ => h1, agreeAfterFirst_two h2⟩
  | f21t =>
    obtain ⟨h1, h2⟩ := Operands.regBranch.inj (Except.ok.inj same)
    exact ⟨fun _ => h1, agreeAfterFirst_two (signExtend_unitAt_inj h2)⟩
  | f21s =>
    obtain ⟨h1, h2⟩ := Operands.literal.inj (Except.ok.inj same)
    exact ⟨fun _ => h1, agreeAfterFirst_two (signExtend_unitAt_inj h2)⟩
  | f21h =>
    obtain ⟨h1, h2⟩ := Operands.literal.inj (Except.ok.inj same)
    have scale : ((Nat.pow 2 (if opcode = 0x15 then 16 else 48) : Nat) : Int) ≠ 0 := by
      split <;> decide
    have h2 := signExtend_unitAt_inj (Int.eq_of_mul_eq_mul_right scale h2)
    exact ⟨fun _ => h1, agreeAfterFirst_two h2⟩
  | f21c =>
    obtain ⟨h1, h2⟩ := Operands.regRef.inj (Except.ok.inj same)
    exact ⟨fun _ => h1, agreeAfterFirst_two h2⟩
  | f23x =>
    obtain ⟨h1, h2, h3⟩ := Operands.regs3.inj (Except.ok.inj same)
    exact ⟨fun _ => h1, agreeAfterFirst_two (eq_of_mod_of_div 256 h2 h3)⟩
  | f22b =>
    obtain ⟨h1, h2, h3⟩ := Operands.regsLiteral.inj (Except.ok.inj same)
    have byte := unitAt_lt u 1
    have byte' := unitAt_lt v 1
    have h3 := signExtend_inj (by decide) (by omega) (by omega) h3
    exact ⟨fun _ => h1, agreeAfterFirst_two (eq_of_mod_of_div 256 h2 h3)⟩
  | f22t =>
    obtain ⟨h1, h2, h3⟩ := Operands.regsBranch.inj (Except.ok.inj same)
    exact ⟨fun _ => eq_of_mod_of_div 16 h1 h2, agreeAfterFirst_two (signExtend_unitAt_inj h3)⟩
  | f22s =>
    obtain ⟨h1, h2, h3⟩ := Operands.regsLiteral.inj (Except.ok.inj same)
    exact ⟨fun _ => eq_of_mod_of_div 16 h1 h2, agreeAfterFirst_two (signExtend_unitAt_inj h3)⟩
  | f22c =>
    obtain ⟨h1, h2, h3⟩ := Operands.regsRef.inj (Except.ok.inj same)
    exact ⟨fun _ => eq_of_mod_of_div 16 h1 h2, agreeAfterFirst_two h3⟩
  | _ => exact absurd size (by decide)

/-- Two more units, which may make one number. -/
theorem shown_of_three_units (size : format.units = 3) (plain : format ≠ .f35c) :
    Shown format hi hi' u v := by
  have same := hu.trans hv.symm
  cases format with
  | f35c => exact absurd rfl plain
  | f32x => exact ⟨nofun, agreeAfterFirst_three (Operands.regs2.inj (Except.ok.inj same))⟩
  | f30t =>
    have h1 := signExtend_wideAt_inj (Operands.branch.inj (Except.ok.inj same))
    exact ⟨nofun, agreeAfterFirst_three h1⟩
  | f31t =>
    obtain ⟨h1, h2⟩ := Operands.regBranch.inj (Except.ok.inj same)
    exact ⟨fun _ => h1, agreeAfterFirst_three (signExtend_wideAt_inj h2)⟩
  | f31i =>
    obtain ⟨h1, h2⟩ := Operands.literal.inj (Except.ok.inj same)
    exact ⟨fun _ => h1, agreeAfterFirst_three (signExtend_wideAt_inj h2)⟩
  | f31c =>
    obtain ⟨h1, h2⟩ := Operands.regRef.inj (Except.ok.inj same)
    exact ⟨fun _ => h1, agreeAfterFirst_three (wideAt_inj h2)⟩
  | f3rc =>
    obtain ⟨h1, h2, h3⟩ := Operands.range.inj (Except.ok.inj same)
    exact ⟨fun _ => h2, agreeAfterFirst_three ⟨h3, h1⟩⟩
  | _ => exact absurd size (by decide)

/-- A range with a prototype, and a literal of four units. -/
theorem shown_of_more_units (size : 3 < format.units) (plain : format ≠ .f45cc) :
    Shown format hi hi' u v := by
  have same := hu.trans hv.symm
  cases format with
  | f45cc => exact absurd rfl plain
  | f4rcc =>
    obtain ⟨h1, h2, h3, h4⟩ := Operands.polyRange.inj (Except.ok.inj same)
    exact ⟨fun _ => h2, (agreeAfterFirst_three ⟨h3, h1⟩).succ h4⟩
  | f51l =>
    obtain ⟨h1, h2⟩ := Operands.literal.inj (Except.ok.inj same)
    have front := wideAt_lt u 1
    have front' := wideAt_lt v 1
    have back := wideAt_lt u 3
    have back' := wideAt_lt v 3
    have whole := signExtend_inj (by decide) (by omega) (by omega) h2
    have first : wideAt u 1 = wideAt v 1 := by omega
    have second : wideAt u 3 = wideAt v 3 := by omega
    have three := agreeAfterFirst_three (wideAt_inj first)
    exact ⟨fun _ => h1, (three.succ (wideAt_inj second).1).succ (wideAt_inj second).2⟩
  | _ => exact absurd size (by decide)

/-- Operands other than lists show the units after the first, and the high byte of the first
unless the layout passes over it. -/
theorem shown_of_operandsOf (hh : hi < 256) (hh' : hi' < 256)
    (plain : format ≠ .f35c ∧ format ≠ .f45cc) : Shown format hi hi' u v := by
  have sizes : format.units = 1 ∨ format.units = 2 ∨ format.units = 3 ∨ 3 < format.units := by
    have := format.units_pos
    omega
  rcases sizes with size | size | size | size
  · exact shown_of_one_unit hu hv size hh hh'
  · exact shown_of_two_units hu hv size
  · exact shown_of_three_units hu hv size plain.1
  · exact shown_of_more_units hu hv size plain.2

end Families

/-- The digits of a list: the first unit is read but for the fifth place if that is not used, and
the third as far as there are registers. -/
theorem digits_of_list {args : List Register} (low : unitAt u 0 % 256 = unitAt v 0 % 256)
    (hu : argumentList (unitAt u 0 / 256) (unitAt u 2) a = .ok args)
    (hv : argumentList (unitAt v 0 / 256) (unitAt v 2) b = .ok args) {unit digit : Nat}
    (other : unit ≠ 0 → unit ≠ 2 → unitAt u unit = unitAt v unit) (hd : digit < 4)
    (read : Opcode.Format.ignores .f35c args.length unit digit = false) :
    digitAt u unit digit = digitAt v unit digit := by
  have few : args.length ≤ 5 :=
    (length_of_argumentList hu).trans_le (argumentList_eq_ok_iff.mp hu).1
  obtain ⟨count, fifth, places⟩ :=
    (argumentList_again_iff (unitAt_lt u 2) (unitAt_lt v 2) hu).mp hv
  simp only [Opcode.Format.ignores, Bool.or_eq_false_iff, Bool.and_eq_false_iff,
    decide_eq_false_iff_not] at read
  by_cases first : unit = 0
  · subst first
    obtain small | rfl | rfl : digit < 2 ∨ digit = 2 ∨ digit = 3 := by omega
    · exact digitAt_of_low low small
    · have fifth := fifth (by omega)
      simp only [digitAt, Nat.reducePow]
      omega
    · simp only [digitAt, Nat.reducePow]
      omega
  · by_cases third : unit = 2
    · subst third
      exact places digit hd (by omega)
    · exact digitAt_congr (other first third) digit

/-- All digits of a layout that it does not pass over show in the operands. -/
theorem digits_of_operandsOf (low : unitAt u 0 % 256 = unitAt v 0 % 256)
    (hu : operandsOf format opcode (unitAt u 0 / 256) u a = .ok operands)
    (hv : operandsOf format opcode (unitAt v 0 / 256) v b = .ok operands) {unit digit : Nat}
    (hunit : unit < format.units) (hd : digit < 4)
    (read : format.ignores operands.listed.length unit digit = false) :
    digitAt u unit digit = digitAt v unit digit := by
  by_cases plain : format ≠ .f35c ∧ format ≠ .f45cc
  · have bound := unitAt_lt u 0
    have bound' := unitAt_lt v 0
    obtain ⟨high, later⟩ := shown_of_operandsOf hu hv (by omega) (by omega) plain
    rcases Nat.eq_zero_or_pos unit with rfl | hpos
    · rcases Nat.lt_or_ge digit 2 with small | large
      · exact digitAt_of_low low small
      · refine digitAt_congr ?_ digit
        have high := high (by cases format <;> simp_all [Opcode.Format.ignores])
        rw [← Nat.mod_add_div (unitAt u 0) 256, low, high, Nat.mod_add_div]
    · exact digitAt_congr (later unit hpos hunit) digit
  · rcases Decidable.not_and_iff_or_not.mp plain with list | list
    · obtain rfl := Decidable.not_not.mp list
      obtain ⟨args, listed, rfl⟩ := map_eq_ok_iff.mp hu
      obtain ⟨args', listed', same⟩ := map_eq_ok_iff.mp hv
      obtain ⟨rfl, index⟩ := Operands.list.inj same
      refine digits_of_list low listed listed' (fun first third => ?_) hd read
      have hunit : unit < 3 := hunit
      obtain rfl : unit = 1 := by omega
      exact index.symm
    · obtain rfl := Decidable.not_not.mp list
      obtain ⟨args, listed, rfl⟩ := map_eq_ok_iff.mp hu
      obtain ⟨args', listed', same⟩ := map_eq_ok_iff.mp hv
      obtain ⟨rfl, index, proto⟩ := Operands.polyList.inj same
      refine digits_of_list low listed listed' (fun first third => ?_) hd read
      have hunit : unit < 4 := hunit
      obtain rfl | rfl : unit = 1 ∨ unit = 3 := by omega
      · exact index.symm
      · exact proto.symm

/-- A list depends on the digits alone that its layout does not pass over. -/
theorem argumentList_of_digits {args : List Register}
    (h : argumentList (unitAt u 0 / 256) (unitAt u 2) a = .ok args)
    (same : ∀ unit < 3, ∀ digit < 4, Opcode.Format.ignores .f35c args.length unit digit = false →
      digitAt u unit digit = digitAt v unit digit) :
    argumentList (unitAt v 0 / 256) (unitAt v 2) a = .ok args := by
  have bound := unitAt_lt u 0
  have bound' := unitAt_lt v 0
  refine (argumentList_again_iff (unitAt_lt u 2) (unitAt_lt v 2) h).mpr ⟨?_, ?_, ?_⟩
  · have top := same 0 (by decide) 3 (by decide) rfl
    simp only [digitAt, Nat.reducePow] at top
    omega
  · intro five
    have fifth := same 0 (by decide) 2 (by decide) (by simp [Opcode.Format.ignores, five])
    simp only [digitAt, Nat.reducePow] at fifth
    omega
  · intro digit hd used
    exact same 2 (by decide) digit hd (by simp [Opcode.Format.ignores, used])

/-- Operands depend on the digits alone that their layout does not pass over. -/
theorem operandsOf_of_digits
    (hu : operandsOf format opcode (unitAt u 0 / 256) u a = .ok operands)
    (same : ∀ unit < format.units, ∀ digit < 4,
      format.ignores operands.listed.length unit digit = false →
      digitAt u unit digit = digitAt v unit digit) :
    operandsOf format opcode (unitAt v 0 / 256) v a = .ok operands := by
  have whole (unit : Nat) (inside : unit < format.units)
      (read : ∀ digit < 4, format.ignores operands.listed.length unit digit = false) :
      unitAt u unit = unitAt v unit :=
    unitAt_eq_of_digits fun digit hd => same unit inside digit hd (read digit hd)
  cases format
  case f10x => exact hu
  case f20t | f30t | f32x =>
    have later (unit : Nat) (inside) (pos : 0 < unit) : unitAt u unit = unitAt v unit :=
      whole unit inside fun digit _ => by simp [Opcode.Format.ignores, Nat.ne_of_gt pos]
    simp (disch := decide) only [operandsOf, wideAt, later] at hu ⊢
    exact hu
  case f35c =>
    obtain ⟨args, listed, rfl⟩ := map_eq_ok_iff.mp hu
    refine map_eq_ok_iff.mpr ⟨args, argumentList_of_digits listed same, ?_⟩
    rw [whole 1 (by decide) fun _ _ => rfl]
  case f45cc =>
    obtain ⟨args, listed, rfl⟩ := map_eq_ok_iff.mp hu
    refine map_eq_ok_iff.mpr ⟨args, argumentList_of_digits listed fun unit inside =>
      same unit (Nat.lt_succ_of_lt inside), ?_⟩
    rw [whole 1 (by decide) fun _ _ => rfl, whole 3 (by decide) fun _ _ => rfl]
  all_goals
    have all (unit : Nat) (inside) := whole unit inside fun _ _ => rfl
    rw [← all 0 (by decide)]
    simp (disch := decide) only [operandsOf, wideAt, all] at hu ⊢
    exact hu

end Layouts

/-! ## Payloads -/

section Payloads

/-- Equal numbers are written in equal units. -/
theorem units_of_wideInts {start count : Nat} (hu : start + 2 * count ≤ u.length)
    (hv : start + 2 * count ≤ v.length)
    (h : wideInts count (u.drop start) = wideInts count (v.drop start)) {unit : Nat}
    (low : start ≤ unit) (high : unit < start + 2 * count) : unitAt u unit = unitAt v unit := by
  induction count generalizing start with
  | zero => omega
  | succ count ih =>
    rw [wideInts_drop (by omega), wideInts_drop (by omega)] at h
    obtain ⟨front, later⟩ := List.cons.inj h
    obtain ⟨first, second⟩ := signExtend_wideAt_inj front
    rcases Nat.lt_or_ge unit (start + 2) with early | late
    · obtain rfl | rfl : unit = start ∨ unit = start + 1 := by omega
      · exact first
      · exact second
    · exact ih (by omega) (by omega) later late (by omega)

theorem zip_inj {α β : Type} {xs xs' : List α} {ys ys' : List β} (hl : xs.length = ys.length)
    (hl' : xs'.length = ys'.length) (h : xs.zip ys = xs'.zip ys') : xs = xs' ∧ ys = ys' := by
  have parts := congrArg List.unzip h
  rw [List.unzip_zip hl, List.unzip_zip hl'] at parts
  exact Prod.mk.inj parts

/-- The kind of a payload shows in its operands. -/
theorem kind_of_payloadOf {kind kind' : Nat} (hk : 1 ≤ kind ∧ kind ≤ 3)
    (hk' : 1 ≤ kind' ∧ kind' ≤ 3) (h : payloadOf kind u = payloadOf kind' v) : kind = kind' := by
  obtain rfl | rfl | rfl : kind = 1 ∨ kind = 2 ∨ kind = 3 := by omega
  all_goals obtain rfl | rfl | rfl : kind' = 1 ∨ kind' = 2 ∨ kind' = 3 := by omega
  all_goals first | rfl | exact nomatch h

/-- A payload shows its units, those of an array only up to the contents. -/
theorem units_of_payloadOf {kind : Nat} (hk : 1 ≤ kind ∧ kind ≤ 3)
    (hu : payloadSize kind u ≤ u.length) (hv : payloadSize kind v ≤ v.length)
    (h : payloadOf kind u = payloadOf kind v) {unit : Nat} (pos : 1 ≤ unit)
    (inside : unit < payloadSize kind u) (fixed : kind = 3 → unit < 4) :
    unitAt u unit = unitAt v unit := by
  have size : payloadSize kind u = payloadSize kind v := by
    rw [← size_payloadOf hu, h, size_payloadOf hv]
  obtain rfl | rfl | rfl : kind = 1 ∨ kind = 2 ∨ kind = 3 := by omega
  · obtain ⟨key, targets⟩ := Operands.packedSwitch.inj h
    have size : 4 + 2 * unitAt u 1 = 4 + 2 * unitAt v 1 := size
    have entries : unitAt u 1 = unitAt v 1 := by omega
    have inside : unit < 4 + 2 * unitAt u 1 := inside
    have hu : 4 + 2 * unitAt u 1 ≤ u.length := hu
    have hv : 4 + 2 * unitAt v 1 ≤ v.length := hv
    rw [← entries] at targets hv
    obtain ⟨second, third⟩ := signExtend_wideAt_inj key
    obtain rfl | rfl | rfl | late : unit = 1 ∨ unit = 2 ∨ unit = 3 ∨ 4 ≤ unit := by omega
    · exact entries
    · exact second
    · exact third
    · exact units_of_wideInts hu hv targets late inside
  · have cases := Operands.sparseSwitch.inj h
    have size : 2 + 4 * unitAt u 1 = 2 + 4 * unitAt v 1 := size
    have entries : unitAt u 1 = unitAt v 1 := by omega
    have inside : unit < 2 + 4 * unitAt u 1 := inside
    have hu : 2 + 4 * unitAt u 1 ≤ u.length := hu
    have hv : 2 + 4 * unitAt v 1 ≤ v.length := hv
    rw [← entries] at cases hv
    have room {w : List UInt16} (start : Nat) (h : start + 2 * unitAt u 1 ≤ w.length) :
        (wideInts (unitAt u 1) (w.drop start)).length = unitAt u 1 := by
      refine length_wideInts ?_
      rw [List.length_drop]
      omega
    obtain ⟨keys, targets⟩ := zip_inj
      ((room 2 (by omega)).trans (room (2 + 2 * unitAt u 1) (by omega)).symm)
      ((room 2 (by omega)).trans (room (2 + 2 * unitAt u 1) (by omega)).symm) cases
    obtain rfl | early | late :
        unit = 1 ∨ (2 ≤ unit ∧ unit < 2 + 2 * unitAt u 1) ∨ 2 + 2 * unitAt u 1 ≤ unit := by omega
    · exact entries
    · exact units_of_wideInts (by omega) (by omega) keys early.1 early.2
    · exact units_of_wideInts (by omega) (by omega) targets late (by omega)
  · obtain ⟨width, count⟩ := Operands.fillArrayData.inj h
    obtain ⟨second, third⟩ := wideAt_inj count
    have fixed := fixed rfl
    obtain rfl | rfl | rfl : unit = 1 ∨ unit = 2 ∨ unit = 3 := by omega
    · exact width
    · exact second
    · exact third

theorem isPayload_payloadOf (kind : Nat) (units : List UInt16) :
    (payloadOf kind units).isPayload = true := by
  rw [payloadOf]
  split
  · rfl
  · split <;> rfl

/-- Only the contents of an array are passed over in a payload. -/
theorem ignores_payloadOf {kind : Nat} (hk : 1 ≤ kind ∧ kind ≤ 3) (units : List UInt16)
    (unit digit : Nat) :
    ignores ⟨0, payloadOf kind units⟩ unit digit = decide (kind = 3 ∧ 4 ≤ unit) := by
  obtain rfl | rfl | rfl : kind = 1 ∨ kind = 2 ∨ kind = 3 := by omega
  · rfl
  · rfl
  · show decide (4 ≤ unit) = decide (3 = 3 ∧ 4 ≤ unit)
    simp

end Payloads

/-! ## Instructions -/

section

variable {a b : Address} {i : Instruction}

theorem ignores_of_layout {opcode : Nat} {operands : Operands} {description : Opcode.Description}
    (h : operands.isPayload = false) (known : Opcode.describe? opcode = some description)
    (unit digit : Nat) :
    ignores ⟨opcode, operands⟩ unit digit =
      description.format.ignores operands.listed.length unit digit := by
  have layout : (Opcode.describe? opcode).any
      (·.format.ignores operands.listed.length unit digit) =
        description.format.ignores operands.listed.length unit digit := by
    rw [known]
    rfl
  cases operands <;> first | exact layout | cases h

/-- The units of a decoded payload. -/
theorem payload_of_decode (h : decode u a = .ok i) (hp : i.isPayload = true) :
    ∃ kind, (1 ≤ kind ∧ kind ≤ 3) ∧ unitAt u 0 = 256 * kind ∧ i = ⟨0, payloadOf kind u⟩ ∧
      i.size = payloadSize kind u := by
  rcases u with _ | ⟨first, rest⟩
  · cases h
  rcases decode_cases h with ⟨head, hi, size⟩ | ⟨-, description, operands, -, ho, rfl, -⟩
  · refine ⟨first.toNat / 256, head.2, ?_, hi, size⟩
    have low : first.toNat % 256 = 0 := head.1
    show first.toNat = 256 * (first.toNat / 256)
    omega
  · have layout := (operands_of_layout (by have := UInt16.toNat_lt first; omega) ho).1
    cases hp.symm.trans layout

/-- The units of a decoded instruction that is not a payload. -/
theorem layout_of_decode (h : decode u a = .ok i) (hp : i.isPayload = false) :
    ∃ description operands, operands.isPayload = false ∧
      Opcode.describe? (unitAt u 0 % 256) = some description ∧
      operandsOf description.format (unitAt u 0 % 256) (unitAt u 0 / 256) u a = .ok operands ∧
      i = ⟨unitAt u 0 % 256, operands⟩ ∧ i.size = description.format.units := by
  rcases u with _ | ⟨first, rest⟩
  · cases h
  rcases decode_cases h with ⟨-, rfl, -⟩ | ⟨-, description, operands, known, ho, rfl, size⟩
  · cases hp.symm.trans (isPayload_payloadOf _ _)
  · exact ⟨description, operands, hp, known, ho, rfl, size⟩

/-- Units that are decoded as one instruction agree in what it does not pass over. -/
theorem sameDigits_of_decode (hu : decode u a = .ok i) (hv : decode v b = .ok i) :
    i.SameDigits u v := by
  have whole := (decode_inside hu).1
  have whole' := (decode_inside hv).1
  intro unit inside digit hd read
  cases hp : i.isPayload with
  | true =>
    obtain ⟨kind, hk, head, hi, size⟩ := payload_of_decode hu hp
    obtain ⟨kind', hk', head', hi', size'⟩ := payload_of_decode hv hp
    have same := congrArg Instruction.operands (hi.symm.trans hi')
    obtain rfl : kind = kind' := kind_of_payloadOf hk hk' same
    rw [hi, ignores_payloadOf hk, decide_eq_false_iff_not] at read
    rcases Nat.eq_zero_or_pos unit with rfl | pos
    · exact digitAt_congr (head.trans head'.symm) digit
    · refine digitAt_congr (units_of_payloadOf hk (size ▸ whole) (size' ▸ whole') same pos
        (size ▸ inside) ?_) digit
      intro array
      exact Nat.lt_of_not_le fun late => read ⟨array, late⟩
  | false =>
    obtain ⟨description, operands, layout, known, ho, hi, size⟩ := layout_of_decode hu hp
    obtain ⟨description', operands', -, known', ho', hi', -⟩ := layout_of_decode hv hp
    obtain ⟨opcode, rfl⟩ := Instruction.mk.inj (hi.symm.trans hi')
    obtain rfl : description = description' :=
      Option.some.inj (known.symm.trans (opcode ▸ known'))
    rw [hi, ignores_of_layout layout known] at read
    exact digits_of_operandsOf opcode ho (opcode ▸ ho') (size ▸ inside) hd read

/-- The opcode is never passed over. -/
theorem ignores_low (format : Opcode.Format) (count : Nat) {digit : Nat} (hd : digit < 2) :
    format.ignores count 0 digit = false := by
  have low : ¬ 2 ≤ digit := by omega
  have other : digit ≠ 2 := by omega
  cases format <;> simp [Opcode.Format.ignores, low, other]

theorem take_eq_of_units {n : Nat} (hu : n ≤ u.length) (hv : n ≤ v.length)
    (h : ∀ unit < n, unitAt u unit = unitAt v unit) : u.take n = v.take n := by
  refine take_eq_take_iff_getElem?.mpr fun unit inside => ?_
  have same := h unit inside
  rw [unitAt, unitAt, List.getElem?_eq_getElem (by omega), List.getElem?_eq_getElem (by omega)]
    at same
  rw [List.getElem?_eq_getElem (by omega), List.getElem?_eq_getElem (by omega)]
  exact congrArg some (UInt16.toNat_inj.mp same)

/-- Array data is decoded again from its fixed part, whatever the contents. -/
theorem decode_arrayData_of_take_eq (head : unitAt u 0 = 256 * 3)
    (whole : payloadSize 3 u ≤ v.length) (same : u.take 4 = v.take 4) :
    decode v a = .ok ⟨0, payloadOf 3 u⟩ := by
  rcases v with _ | ⟨first, rest⟩
  · have fixed := payloadFixed_le_payloadSize 3 u
    exact absurd (Nat.le_trans fixed whole) (by decide)
  have first_eq : first.toNat = 256 * 3 := (unitAt_of_take_eq same (by decide)).symm.trans head
  have kind : first.toNat / 256 = 3 := by omega
  have size : payloadSize 3 u = payloadSize 3 (first :: rest) :=
    payloadSize_of_take_eq (by decide) same
  have contents : payloadOf 3 u = payloadOf 3 (first :: rest) := by
    show Operands.fillArrayData (unitAt u 1) (wideAt u 2) = .fillArrayData _ _
    rw [unitAt_of_take_eq same (by decide), wideAt_of_take_eq same (by decide)]
  rw [decode_payload _ _ ⟨by omega, by omega, by omega⟩, kind, ← size, if_pos whole, contents]

/-- Units that agree with those of an instruction in what it does not pass over are decoded as
that instruction, unless they turn it into a payload. -/
theorem decode_of_sameDigits (h : decode u a = .ok i) (whole : i.size ≤ v.length)
    (same : i.SameDigits u v) (head : ∀ first ∈ v.head?, IsPayloadHead first → i.isPayload = true) :
    decode v a = .ok i := by
  have unitOf {unit : Nat} (inside : unit < i.size)
      (read : ∀ digit < 4, i.ignores unit digit = false) : unitAt u unit = unitAt v unit :=
    unitAt_eq_of_digits fun digit hd => same unit inside digit hd (read digit hd)
  have whole' := (decode_inside h).1
  cases hp : i.isPayload with
  | true =>
    obtain ⟨kind, hk, head, hi, size⟩ := payload_of_decode h hp
    have read (unit digit : Nat) : i.ignores unit digit = decide (kind = 3 ∧ 4 ≤ unit) := by
      rw [hi, ignores_payloadOf hk]
    by_cases array : kind = 3
    · have four : 4 ≤ i.size := by
        rw [size, array]
        exact Nat.le_add_right 4 _
      subst array
      rw [hi]
      refine decode_arrayData_of_take_eq head (size ▸ whole) (take_eq_of_units
        (Nat.le_trans four whole') (Nat.le_trans four whole) fun unit early => ?_)
      refine unitOf (Nat.lt_of_lt_of_le early four) fun digit _ => ?_
      rw [read, decide_eq_false_iff_not]
      omega
    · refine decode_of_take_eq h (take_eq_of_units whole' whole fun unit inside => ?_)
      refine unitOf inside fun digit _ => ?_
      rw [read, decide_eq_false_iff_not]
      omega
  | false =>
    obtain ⟨description, operands, layout, known, ho, hi, size⟩ := layout_of_decode h hp
    rcases v with _ | ⟨first, rest⟩
    · exact absurd i.size_pos (Nat.not_lt_of_le whole)
    have digits : ∀ unit < description.format.units, ∀ digit < 4,
        description.format.ignores operands.listed.length unit digit = false →
        digitAt u unit digit = digitAt (first :: rest) unit digit := by
      intro unit inside digit hd read
      refine same unit (size ▸ inside) digit hd ?_
      rw [hi, ignores_of_layout layout known, read]
    have opcode : unitAt u 0 % 256 = first.toNat % 256 := by
      have d0 := digits 0 description.format.units_pos 0 (by decide) (ignores_low _ _ (by decide))
      have d1 := digits 0 description.format.units_pos 1 (by decide) (ignores_low _ _ (by decide))
      simp only [digitAt, Nat.reducePow] at d0 d1
      have zero : unitAt (first :: rest) 0 = first.toNat := rfl
      rw [zero] at d0 d1
      omega
    have other : ¬ IsPayloadHead first := fun payload => by
      cases hp.symm.trans (head first rfl payload)
    have again : operandsOf description.format (first.toNat % 256) (first.toNat / 256)
        (first :: rest) a = .ok operands := operandsOf_of_digits (opcode ▸ ho) digits
    rw [decode_layout _ _ other (opcode ▸ known), if_pos (size ▸ whole), again, hi, opcode]
    rfl

/-- Whether units are an instruction does not depend on where they lie. -/
theorem decode_at (h : decode u a = .ok i) (b : Address) : decode u b = .ok i := by
  have shifted (addr : Address) :
      decode u addr = (decode u Address.entry).mapError (Fault.shift addr) := by
    rw [← decode_shift, Address.entry, Nat.zero_add]
  rw [shifted] at h ⊢
  exact mapError_eq_ok_iff.mpr (mapError_eq_ok_iff.mp h)

/-- **Decoding loses the ignored digits alone**: units that are decoded with one opcode and the
same operands take the same number of units, and agree in all digits of these that the
instruction does not ignore. The ignored digits do not matter: other units that agree in the rest
are decoded as the same instruction, if they do not begin like a payload that it is not. -/
theorem decode_loses_ignored_digits {j : Instruction} (hu : decode u a = .ok i)
    (hv : decode v b = .ok j) (opcode : i.opcode = j.opcode) (operands : i.operands = j.operands) :
    i.size = j.size ∧ i.size ≤ u.length ∧ j.size ≤ v.length ∧
      i.SameDigits u v ∧
      ∀ w addr, i.size ≤ w.length → i.SameDigits u w →
        (∀ first ∈ w.head?, IsPayloadHead first → i.isPayload = true) → decode w addr = .ok i := by
  obtain rfl : i = j := by
    cases i
    cases j
    exact Instruction.mk.injEq .. ▸ ⟨opcode, operands⟩
  refine ⟨rfl, (decode_inside hu).1, (decode_inside hv).1, sameDigits_of_decode hu hv, ?_⟩
  intro w addr whole same head
  exact decode_at (decode_of_sameDigits hu whole same head) addr

/-- A call with two registers: the places of the other three are ignored. -/
theorem call_loses_unused_places :
    decode [0x206e, 7, 0x4321] 0 = .ok ⟨0x6e, .list [1, 2] 7⟩ ∧
      decode [0x2f6e, 7, 0x9921, 5] 4 = .ok ⟨0x6e, .list [1, 2] 7⟩ ∧
      SameDigits ⟨0x6e, .list [1, 2] 7⟩ [0x206e, 7, 0x4321] [0x2f6e, 7, 0x9921, 5] ∧
      decode [0x286e, 7, 0x0021] 1 = .ok ⟨0x6e, .list [1, 2] 7⟩ := by
  obtain ⟨-, -, -, same, again⟩ := decode_loses_ignored_digits
    (u := [0x206e, 7, 0x4321]) (v := [0x2f6e, 7, 0x9921, 5]) (a := 0) (b := 4) rfl rfl rfl rfl
  refine ⟨rfl, rfl, same, again [0x286e, 7, 0x0021] 1 (by decide) (by decide) ?_⟩
  rintro first ⟨⟩
  decide

end

end Instruction

end PermissionAudit
