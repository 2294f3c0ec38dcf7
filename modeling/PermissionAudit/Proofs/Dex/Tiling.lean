import Mathlib.Data.List.Chain
import PermissionAudit.Proofs.Dex.Decoded

/-!
A sweep as a loop. It has read the instructions before an address and decodes the
one there, until it comes to the end of the units or to units that are no
instruction. What it has read tiles the units up to the address, so an instruction
is found by its address, also when the search halves the code at every step.
-/

namespace PermissionAudit

namespace Instruction

/-- The sweep has come to an address, with the instructions before it. -/
inductive Swept (units : List UInt16) : Address → List Located → Prop where
  | start : Swept units Address.entry []
  | step {addr : Address} {done : List Located} {instr : Instruction} :
      Swept units addr done → addr < units.length → decode (units.drop addr) addr = .ok instr →
      Swept units (addr + instr.size) (done ++ [⟨addr, instr⟩])

/-- The instructions lie one behind the other from the start of the units to an address, and each
is what is decoded where it lies. -/
structure Tiles (units : List UInt16) (stop : Address) (instrs : List Located) : Prop where
  eq_nil_iff : instrs = [] ↔ stop = Address.entry
  first : ∀ l ∈ instrs.head?, l.addr = Address.entry
  adjacent : instrs.IsChain fun k l => l.addr = k.nextAddr
  last : ∀ l ∈ instrs.getLast?, l.nextAddr = stop
  size_pos : ∀ l ∈ instrs, 1 ≤ l.instr.size
  decoded : ∀ l ∈ instrs, decode (units.drop l.addr) l.addr = .ok l.instr

variable {units : List UInt16} {addr : Address} {done : List Located}

/-! ## What the loop keeps -/

theorem addr_add_size_le {instr : Instruction} (ha : addr < units.length)
    (h : decode (units.drop addr) addr = .ok instr) : addr + instr.size ≤ units.length := by
  have inside := (decode_inside h).1
  rw [List.length_drop] at inside
  exact Nat.add_le_of_le_sub' (Nat.le_of_lt ha) inside

theorem Swept.bounds (h : Swept units addr done) : done.length ≤ addr ∧ addr ≤ units.length := by
  induction h with
  | start => exact ⟨Nat.le_refl _, Nat.zero_le _⟩
  | @step addr done instr _ ha hd ih =>
    refine ⟨?_, addr_add_size_le ha hd⟩
    rw [List.length_append, List.length_singleton]
    exact Nat.add_le_add ih.1 instr.size_pos

theorem tiles_nil (units : List UInt16) : Tiles units Address.entry [] where
  eq_nil_iff := Iff.of_eq (by simp)
  first l hl := nomatch hl
  adjacent := .nil
  last l hl := nomatch hl
  size_pos l hl := nomatch hl
  decoded l hl := nomatch hl

theorem lt_length_of_decode {instr : Instruction} (h : decode (units.drop addr) addr = .ok instr) :
    addr < units.length := by
  rcases Nat.lt_or_ge addr units.length with ha | ha
  · exact ha
  · rw [List.drop_eq_nil_of_le ha] at h
    cases h

/-- Tiles with one more at the end: it lies where those before it end. -/
theorem tiles_append_singleton {stop : Address} {l : Located} :
    Tiles units stop (done ++ [l]) ↔
      Tiles units l.addr done ∧ decode (units.drop l.addr) l.addr = .ok l.instr ∧
        l.nextAddr = stop := by
  constructor
  · intro h
    obtain ⟨before, -, joint⟩ := List.isChain_append.mp h.adjacent
    have mem {k : Located} (hk : k ∈ done) : k ∈ done ++ [l] := List.mem_append_left _ hk
    have self : l ∈ done ++ [l] := List.mem_append_right _ List.mem_cons_self
    have last : ∀ k ∈ done.getLast?, k.nextAddr = l.addr := fun k hk => (joint k hk l rfl).symm
    refine ⟨⟨⟨?_, ?_⟩, ?_, before, last, fun k hk => h.size_pos k (mem hk),
      fun k hk => h.decoded k (mem hk)⟩, h.decoded l self, h.last l (by simp)⟩
    · rintro rfl
      exact h.first l rfl
    · -- the instruction before `l` has a size, so `l` lies behind the start
      intro start
      cases hk : done.getLast? with
      | none => exact List.getLast?_eq_none_iff.mp hk
      | some k =>
        have behind : k.addr + k.instr.size = 0 := (last k hk).trans start
        have size := h.size_pos k (mem (List.mem_of_getLast? hk))
        exact absurd behind (Nat.ne_of_gt (Nat.add_pos_right _ size))
    · intro k hk
      refine h.first k ?_
      rw [List.head?_append, Option.mem_def.mp hk]
      rfl
  · rintro ⟨h, hd, rfl⟩
    have behind : l.nextAddr ≠ Address.entry :=
      Nat.ne_of_gt (Nat.lt_of_lt_of_le l.instr.size_pos (Nat.le_add_left _ _))
    refine ⟨by simp [behind], ?_, ?_, by simp, ?_, ?_⟩
    · intro k hk
      rcases done with _ | ⟨first, rest⟩
      · obtain rfl : l = k := Option.some.inj hk
        exact h.eq_nil_iff.mp rfl
      · exact h.first k hk
    · refine List.isChain_append.mpr ⟨h.adjacent, .singleton l, fun k hk k' hk' => ?_⟩
      obtain rfl : l = k' := Option.some.inj hk'
      exact (h.last k hk).symm
    · intro k _
      exact k.instr.size_pos
    · intro k hk
      rcases List.mem_append.mp hk with hk | hk
      · exact h.decoded k hk
      · obtain rfl := List.mem_singleton.mp hk
        exact hd

theorem Swept.tiles (h : Swept units addr done) : Tiles units addr done := by
  induction h with
  | start => exact tiles_nil units
  | step _ _ hd ih => exact tiles_append_singleton.mpr ⟨ih, hd, rfl⟩

theorem Tiles.swept (h : Tiles units addr done) : Swept units addr done := by
  induction done using List.reverseRecOn generalizing addr with
  | nil =>
    rw [h.eq_nil_iff.mp rfl]
    exact .start
  | append_singleton done l ih =>
    obtain ⟨before, hd, rfl⟩ := tiles_append_singleton.mp h
    exact .step (ih before) (lt_length_of_decode hd) hd

theorem addr_lt_iff {instrs : List Located}
    (sorted : instrs.Pairwise fun k l => k.addr < l.addr) {i j : Nat} (hi : i < instrs.length)
    (hj : j < instrs.length) : instrs[i].addr < instrs[j].addr ↔ i < j := by
  have ordered := List.pairwise_iff_getElem.mp sorted
  refine ⟨fun h => Nat.lt_of_not_le fun hle => ?_, ordered i j hi hj⟩
  rcases Nat.eq_or_lt_of_le hle with rfl | hlt
  · exact Nat.lt_irrefl _ h
  · exact Nat.lt_asymm h (ordered j i hj hi hlt)

/-- No instruction begins inside another. -/
theorem Tiles.disjoint {instrs : List Located} (h : Tiles units addr instrs) :
    instrs.Pairwise fun k l => k.nextAddr ≤ l.addr := by
  let behind : Located → Located → Prop := fun k l => k.nextAddr ≤ l.addr
  have : Trans behind behind behind := ⟨fun {k l m} hkl hlm =>
    Nat.le_trans hkl (Nat.le_trans (Nat.le_add_right l.addr l.instr.size) hlm)⟩
  have chain : instrs.IsChain behind := h.adjacent.imp fun _ _ hkl => Nat.le_of_eq hkl.symm
  exact chain.pairwise

theorem Tiles.sorted {instrs : List Located} (h : Tiles units addr instrs) :
    instrs.Pairwise fun k l => k.addr < l.addr :=
  h.disjoint.imp fun {k _} hkl =>
    Nat.lt_of_lt_of_le (Nat.lt_add_of_pos_right k.instr.size_pos) hkl

theorem Tiles.nextAddr_le_addr {instrs : List Located} (h : Tiles units addr instrs)
    {k l : Located} (hk : k ∈ instrs) (hl : l ∈ instrs) (hlt : k.addr < l.addr) :
    k.nextAddr ≤ l.addr := by
  obtain ⟨i, hi, rfl⟩ := List.getElem_of_mem hk
  obtain ⟨j, hj, rfl⟩ := List.getElem_of_mem hl
  exact List.pairwise_iff_getElem.mp h.disjoint i j hi hj ((addr_lt_iff h.sorted hi hj).mp hlt)

theorem Tiles.nextAddr_le_length {instrs : List Located} (h : Tiles units addr instrs)
    {l : Located} (hl : l ∈ instrs) : l.nextAddr ≤ units.length := by
  have decoded := h.decoded l hl
  exact addr_add_size_le (lt_length_of_decode decoded) decoded

/-- Every address before the end lies in an instruction. -/
theorem Tiles.covers {instrs : List Located} (h : Tiles units addr instrs) {a : Address}
    (ha : a < addr) : ∃ l ∈ instrs, l.addr ≤ a ∧ a < l.nextAddr := by
  induction instrs using List.reverseRecOn generalizing addr with
  | nil =>
    rw [h.eq_nil_iff.mp rfl] at ha
    exact absurd ha (Nat.not_lt_zero a)
  | append_singleton done l ih =>
    obtain ⟨before, -, rfl⟩ := tiles_append_singleton.mp h
    rcases Nat.lt_or_ge a l.addr with earlier | later
    · obtain ⟨k, hk, hin⟩ := ih before earlier
      exact ⟨k, List.mem_append_left _ hk, hin⟩
    · exact ⟨l, by simp, later, ha⟩

/-! ## Where the loop ends -/

/-- What is left to sweep does not depend on how far the sweep has come. -/
theorem Swept.sweep_eq (h : Swept units addr done) :
    sweep units = (sweepFrom 0 addr (units.drop addr)).map (done ++ ·) := by
  induction h with
  | start =>
    show sweepFrom 0 Address.entry units = (sweepFrom 0 Address.entry units).map id
    cases sweepFrom 0 Address.entry units <;> rfl
  | @step addr done instr _ ha hd ih =>
    have more : units.drop addr ≠ [] := by simpa using ha
    rw [ih, sweepFrom_front more, hd]
    show (sweepFrom 0 (addr + instr.size) ((units.drop addr).drop instr.size) >>= _).map _ = _
    rw [List.drop_drop]
    cases sweepFrom 0 (addr + instr.size) (units.drop (addr + instr.size)) with
    | error e => rfl
    | ok later => exact congrArg Except.ok (List.append_assoc done [⟨addr, instr⟩] later).symm

theorem Swept.sweep_eq_ok {instrs : List Located} (h : Swept units units.length instrs) :
    sweep units = .ok instrs := by
  rw [h.sweep_eq, List.drop_length]
  exact congrArg Except.ok (List.append_nil instrs)

theorem Swept.sweep_eq_error (h : Swept units addr done) (ha : addr < units.length) {e : Fault}
    (he : decode (units.drop addr) addr = .error e) : sweep units = .error e := by
  have more : units.drop addr ≠ [] := by simpa using ha
  rw [h.sweep_eq, sweepFrom_front more, he]
  rfl

/-- The loop goes on to the end of the units or to a fault: every instruction that is read leaves
fewer units. -/
theorem Swept.ends {addr : Address} {done : List Located} (h : Swept units addr done) :
    (∃ instrs, Swept units units.length instrs) ∨
      ∃ addr done e, Swept units addr done ∧ addr < units.length ∧
        decode (units.drop addr) addr = .error e := by
  rcases Nat.lt_or_ge addr units.length with ha | ha
  · cases hd : decode (units.drop addr) addr with
    | error e => exact .inr ⟨addr, done, e, h, ha, hd⟩
    | ok instr =>
      have shorter : units.length - (addr + instr.size) < units.length - addr := by
        have := instr.size_pos
        omega
      exact (h.step ha hd).ends
  · obtain rfl : addr = units.length := Nat.le_antisymm h.bounds.2 ha
    exact .inl ⟨done, h⟩
termination_by units.length - addr

theorem sweep_eq_ok_iff {instrs : List Located} :
    sweep units = .ok instrs ↔ Swept units units.length instrs := by
  refine ⟨fun h => ?_, Swept.sweep_eq_ok⟩
  rcases Swept.start.ends with ⟨instrs', hs⟩ | ⟨addr, done, e, hs, ha, he⟩
  · rwa [Except.ok.inj (h.symm.trans hs.sweep_eq_ok)]
  · cases h.symm.trans (hs.sweep_eq_error ha he)

theorem sweep_eq_error_iff {e : Fault} :
    sweep units = .error e ↔ ∃ addr done, Swept units addr done ∧ addr < units.length ∧
      decode (units.drop addr) addr = .error e := by
  constructor
  · intro h
    rcases Swept.start.ends with ⟨instrs, hs⟩ | ⟨addr, done, e', hs, ha, he⟩
    · cases h.symm.trans hs.sweep_eq_ok
    · obtain rfl : e = e' := Except.error.inj (h.symm.trans (hs.sweep_eq_error ha he))
      exact ⟨addr, done, hs, ha, he⟩
  · rintro ⟨addr, done, hs, ha, he⟩
    exact hs.sweep_eq_error ha he

end Instruction

/-! ## Finding an instruction -/

namespace Code

/-- The last of `size` instructions from `base` on that does not lie behind the address, by
halving; the first of them if all do. -/
def bisectFrom (instrs : List Located) (addr : Address) (base size : Nat) : Nat :=
  if size ≤ 1 then base
  else if instrs[base + size / 2]?.any (addr < ·.addr) then
    bisectFrom instrs addr base (size - size / 2)
  else
    bisectFrom instrs addr (base + size / 2) (size - size / 2)
termination_by size

/-- The instruction that starts at an address, by halving. -/
def bisect (code : Code) (addr : Address) : Option Located :=
  code.instrs[bisectFrom code.instrs addr 0 code.instrs.length]?.filter (·.addr = addr)

/-- Halving keeps the position that is looked for among those left. -/
theorem bisectFrom_eq {instrs : List Located}
    (sorted : instrs.Pairwise fun k l => k.addr < l.addr) {i : Nat} (hi : i < instrs.length)
    {base size : Nat} (hb : base ≤ i) (hs : i < base + size) (inside : base + size ≤ instrs.length) :
    bisectFrom instrs instrs[i].addr base size = i := by
  fun_induction bisectFrom instrs instrs[i].addr base size with
  | case1 base size one => omega
  | case2 base size more behind ih =>
    have hm : base + size / 2 < instrs.length := by omega
    rw [List.getElem?_eq_getElem hm, Option.any_some, decide_eq_true_iff,
      Instruction.addr_lt_iff sorted hi hm] at behind
    exact ih hb (by omega) (by omega)
  | case3 base size more behind ih =>
    have hm : base + size / 2 < instrs.length := by omega
    rw [List.getElem?_eq_getElem hm, Option.any_some, decide_eq_true_iff,
      Instruction.addr_lt_iff sorted hi hm] at behind
    exact ih (by omega) (by omega) (by omega)

variable {code : Code} (sorted : code.instrs.Pairwise fun k l => k.addr < l.addr)

include sorted

/-- No other instruction starts where one does. -/
theorem at?_eq_some_iff {addr : Address} {l : Located} :
    code.at? addr = some l ↔ l ∈ code.instrs ∧ l.addr = addr := by
  constructor
  · intro h
    exact ⟨List.mem_of_find?_eq_some h, by simpa using List.find?_some h⟩
  · rintro ⟨hl, rfl⟩
    rw [at?, List.find?_eq_some_iff_append]
    obtain ⟨before, after, he⟩ := List.append_of_mem hl
    refine ⟨by simp, before, after, he, fun k hk => ?_⟩
    rw [he] at sorted
    have hlt := (List.pairwise_append.mp sorted).2.2 k hk l List.mem_cons_self
    simpa using Nat.ne_of_lt hlt

/-- Halving finds what a search from the start finds. -/
theorem bisect_eq_at? (addr : Address) : code.bisect addr = code.at? addr := by
  apply Option.ext
  intro l
  rw [at?_eq_some_iff sorted, bisect, Option.filter_eq_some_iff, decide_eq_true_iff]
  refine and_congr_left fun ha => ⟨List.mem_of_getElem?, fun hl => ?_⟩
  obtain ⟨i, hi, rfl⟩ := List.getElem_of_mem hl
  subst ha
  rw [bisectFrom_eq sorted hi (Nat.zero_le i) (by omega) (by omega)]
  exact List.getElem?_eq_getElem hi

end Code

/-! ## Code of a file -/

theorem Dex.codeAt_eq {b rest : Bytes} {offset registers ins outs : Nat} {units : List UInt16}
    (located : Dex.locate b offset .code = .ok rest)
    (read : Code.readUnits rest = .ok (registers, ins, outs, units)) :
    Dex.codeAt b offset =
      ((Instruction.sweep units).map (Code.mk registers ins outs)).mapError .instruction := by
  simp only [Dex.codeAt, located, read, bind, Except.bind]
  cases Instruction.sweep units <;> rfl

/-- **A sweep tiles the units**: it succeeds with the instructions that lie one behind the other
from the first unit to the last, each decoded where it lies, and with no others. Otherwise it ends
in the fault at the first address where nothing can be decoded. It takes at most as many steps as
there are units. Code of a file is such a sweep or its fault, and an instruction of it is found by
its address, searching from the start or by halving. -/
theorem sweep_tiles_units (units : List UInt16) :
    (∀ instrs, Instruction.sweep units = .ok instrs ↔
        Instruction.Tiles units units.length instrs) ∧
      (∀ e, Instruction.sweep units = .error e ↔ ∃ addr done, Instruction.Swept units addr done ∧
        addr < units.length ∧ Instruction.decode (units.drop addr) addr = .error e) ∧
      (∀ addr done, Instruction.Swept units addr done →
        done.length ≤ addr ∧ addr ≤ units.length) ∧
      ∀ b offset rest registers ins outs, Dex.locate b offset .code = .ok rest →
        Code.readUnits rest = .ok (registers, ins, outs, units) →
        Dex.codeAt b offset =
            ((Instruction.sweep units).map (Code.mk registers ins outs)).mapError .instruction ∧
          ∀ code, Dex.codeAt b offset = .ok code →
            (code.instrs.Pairwise fun k l => k.addr < l.addr) ∧
              ∀ addr, (∀ l, code.at? addr = some l ↔ l ∈ code.instrs ∧ l.addr = addr) ∧
                (code.at? addr = none ↔ ∀ l ∈ code.instrs, l.addr ≠ addr) ∧
                code.bisect addr = code.at? addr := by
  have tiles (instrs : List Located) :
      Instruction.sweep units = .ok instrs ↔ Instruction.Tiles units units.length instrs :=
    Instruction.sweep_eq_ok_iff.trans ⟨Instruction.Swept.tiles, Instruction.Tiles.swept⟩
  refine ⟨tiles, fun e => Instruction.sweep_eq_error_iff, fun addr done h => h.bounds, ?_⟩
  intro b offset rest registers ins outs located read
  have swept := Dex.codeAt_eq located read
  refine ⟨swept, fun code h => ?_⟩
  rw [swept, mapError_eq_ok_iff, map_eq_ok_iff] at h
  obtain ⟨instrs, hs, rfl⟩ := h
  have sorted := ((tiles instrs).mp hs).sorted
  refine ⟨sorted, fun addr => ⟨fun l => Code.at?_eq_some_iff sorted, ?_,
    Code.bisect_eq_at? sorted addr⟩⟩
  simp [Code.at?]

/-- Array data of three bytes, which take two units, and a return behind it. -/
def arrayDataItem : Bytes :=
  [2, 0, 1, 0, 0, 0, 0, 0, 0, 0, 0, 0, 7, 0, 0, 0] ++
    [0x00, 0x03, 1, 0, 3, 0, 0, 0, 1, 2, 3, 0, 0x0e, 0x00]

theorem arrayDataItem_tiled :
    ∃ code, Dex.codeAt arrayDataItem 0 = .ok code ∧
      code.instrs = [⟨0, 0, .fillArrayData 1 3⟩, ⟨6, 0x0e, .none⟩] ∧
      Instruction.Tiles [0x0300, 1, 3, 0, 0x0201, 0x0003, 0x000e] 7 code.instrs ∧
      code.bisect 6 = some ⟨6, 0x0e, .none⟩ ∧ code.bisect 4 = none ∧
      ∃ done, Instruction.Swept [0x0000, 0x00f0] 1 done ∧
        Instruction.sweep [0x0000, 0x00f0] = .error (.unknownOpcode 0xf0 1) := by
  obtain ⟨tiles, -, -, items⟩ :=
    sweep_tiles_units [0x0300, 1, 3, 0, 0x0201, 0x0003, 0x000e]
  have swept : Instruction.sweep [0x0300, 1, 3, 0, 0x0201, 0x0003, 0x000e] =
      .ok [⟨0, 0, .fillArrayData 1 3⟩, ⟨6, 0x0e, .none⟩] := rfl
  obtain ⟨item, found⟩ := items arrayDataItem 0 arrayDataItem 2 1 0 rfl rfl
  rw [swept] at item
  obtain ⟨-, search⟩ := found _ item
  have begun : Instruction.Swept [0x0000, 0x00f0] Address.entry [] := .start
  have nop : Instruction.decode [0x0000, 0x00f0] Address.entry = .ok ⟨0, .none⟩ := rfl
  have reached : Instruction.Swept [0x0000, 0x00f0] 1 [⟨0, 0, .none⟩] :=
    begun.step (by decide) nop
  refine ⟨_, item, rfl, (tiles _).mp swept, ?_, ?_, _, reached, ?_⟩
  · rw [(search 6).2.2]
    exact ((search 6).1 _).mpr ⟨by simp, rfl⟩
  · rw [(search 4).2.2]
    exact (search 4).2.1.mpr (by decide)
  · exact ((sweep_tiles_units [0x0000, 0x00f0]).2.1 _).mpr
      ⟨1, _, reached, Nat.lt_add_one 1, rfl⟩

end PermissionAudit
