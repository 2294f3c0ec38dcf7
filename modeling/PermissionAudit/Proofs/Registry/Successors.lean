import Mathlib.Tactic.MkIffOfInductiveProp
import PermissionAudit.Proofs.Dex.Tiling
import PermissionAudit.Proofs.Registry.Body
import PermissionAudit.Proofs.Sequence.FirstOccurrence

/-!
Where control goes from an instruction of a body. The ways out of an instruction
are numbered: on to the next instruction first, then its targets in order. Each
leads to an address, which is counted from the instruction and may be negative.
The successors are the instructions of the body at these addresses, in the order
of the ways out; an address at which none starts is passed over.
-/

namespace PermissionAudit

open Machine (IsSigned)

/-- Control may go on to the next instruction. -/
def Instruction.FallsThrough (i : Instruction) : Prop :=
  i.flow = .next ∨ ∃ distance, i.flow = .branch distance ∨ i.flow = .switch distance

/-- A switch payload starts at an address, and has the targets. -/
def Code.HasSwitchAt (code : Code) (addr : Int) (targets : List Int) : Prop :=
  ∃ p ∈ code.instrs, (p.addr : Int) = addr ∧ p.instr.switchTargets? = some targets

/-- No instruction of the body starts at the address: it lies before the entry or behind the end,
inside an instruction, or at a payload. -/
inductive Code.OutOfBody (code : Code) (addr : Int) : Prop where
  | beforeEntry (h : addr < 0)
  | behindEnd (h : ∀ l ∈ code.instrs, (l.nextAddr : Int) ≤ addr)
  | inside (l : Located) (hl : l ∈ code.instrs) (h : (l.addr : Int) < addr ∧ addr < l.nextAddr)
  | payload (l : Located) (hl : l ∈ code.instrs) (hp : l.instr.isPayload)
      (h : (l.addr : Int) = addr)

namespace Located

/-- A way out of an instruction, by its number, leads to an address. -/
@[mk_iff] inductive LeadsTo (code : Code) (l : Located) : Nat → Int → Prop where
  | next (h : l.instr.FallsThrough) : LeadsTo code l 0 l.nextAddr
  | goto {distance : Int} (h : l.instr.flow = .goto distance) :
      LeadsTo code l 0 (l.addr + distance)
  | branch {distance : Int} (h : l.instr.flow = .branch distance) :
      LeadsTo code l 1 (l.addr + distance)
  | switch {distance : Int} {targets : List Int} {k : Nat} {target : Int}
      (h : l.instr.flow = .switch distance) (hp : code.HasSwitchAt (l.addr + distance) targets)
      (ht : targets[k]? = some target) : LeadsTo code l (k + 1) (l.addr + target)

/-- Control may go from one instruction to another. -/
def IsFollowedBy (code : Code) (l m : Located) : Prop :=
  (l.instr.FallsThrough ∧ m.addr = l.nextAddr) ∨
    (∃ distance, (l.instr.flow = .goto distance ∨ l.instr.flow = .branch distance) ∧
      (m.addr : Int) = l.addr + distance) ∨
    ∃ distance targets target, l.instr.flow = .switch distance ∧
      code.HasSwitchAt (l.addr + distance) targets ∧ target ∈ targets ∧
      (m.addr : Int) = l.addr + target

theorem isFollowedBy_iff {code : Code} {l m : Located} :
    IsFollowedBy code l m ↔ ∃ k, LeadsTo code l k m.addr := by
  constructor
  · rintro (⟨hf, ha⟩ | ⟨distance, hf | hf, ha⟩ | ⟨distance, targets, target, hf, hp, ht, ha⟩)
    · exact ⟨0, ha ▸ .next hf⟩
    · exact ⟨0, ha ▸ .goto hf⟩
    · exact ⟨1, ha ▸ .branch hf⟩
    · obtain ⟨k, hk⟩ := List.mem_iff_getElem?.mp ht
      exact ⟨k + 1, ha ▸ .switch hf hp hk⟩
  · rintro ⟨k, h⟩
    generalize ha : (m.addr : Int) = a at h
    cases h with
    | next hf => exact .inl ⟨hf, Int.ofNat.inj ha⟩
    | goto hf => exact .inr (.inl ⟨_, .inl hf, ha⟩)
    | branch hf => exact .inr (.inl ⟨_, .inr hf, ha⟩)
    | switch hf hp ht => exact .inr (.inr ⟨_, _, _, hf, hp, List.mem_of_getElem? ht, ha⟩)

end Located

/-! ## Addresses of the followers -/

theorem Address.offset_eq_some_iff {a target : Nat} {d : Int} (ha : a < 2 ^ 32)
    (hd : IsSigned 32 d) : Address.offset a d = some target ↔ (target : Int) = a + d := by
  have bound : a < Address.limit := Nat.lt_trans ha (by decide)
  have sum : (a : Int) + d < Address.limit := by
    have := hd.2
    rw [Address.limit]
    omega
  rw [Address.offset]
  simp only [bound, sum, true_and, and_true, Option.ite_none_right_eq_some, Option.some.injEq]
  constructor
  · rintro ⟨nonneg, rfl⟩
    exact Int.toNat_of_nonneg nonneg
  · intro h
    rw [← h]
    exact ⟨Int.natCast_nonneg target, Int.toNat_natCast target⟩

namespace Located

/-- No two instructions of a body start at one address, so each is found. -/
theorem positionOf_eq_some_iff {instrs : List Located}
    (sorted : instrs.Pairwise fun k l => k.addr < l.addr) {a : Address} {j : Nat} :
    positionOf instrs (some a) = some j ↔ ∃ m, instrs[j]? = some m ∧ m.addr = a := by
  rw [positionOf, List.findIdx?_eq_some_iff_getElem]
  constructor
  · rintro ⟨hj, ha, -⟩
    exact ⟨instrs[j], List.getElem?_eq_getElem hj, by simpa using ha⟩
  · rintro ⟨m, hm, ha⟩
    obtain ⟨hj, rfl⟩ := List.getElem?_eq_some_iff.mp hm
    refine ⟨hj, by simpa using ha, fun i hi => ?_⟩
    have hlt := List.pairwise_iff_getElem.mp sorted i j (Nat.lt_trans hi hj) hj hi
    have hne : instrs[i].addr ≠ a := Nat.ne_of_lt (ha ▸ hlt)
    simpa using hne

section

variable {code : Code} (sorted : code.instrs.Pairwise fun k l => k.addr < l.addr)
  (short : ∀ l ∈ code.instrs, l.IsShort) {l : Located} (hl : l ∈ code.instrs)

include short hl

theorem offset_eq_some_iff {d : Int} (hd : IsSigned 32 d) {a : Address} :
    l.addr.offset d = some a ↔ (a : Int) = l.addr + d :=
  Address.offset_eq_some_iff
    (Nat.lt_of_le_of_lt (Nat.le_add_right _ _) (short l hl).nextAddr_lt) hd

include sorted

theorem switchTargetsAt_eq_some_iff {d : Int} (hd : IsSigned 32 d) {targets : List Int} :
    switchTargetsAt code (l.addr.offset d) = some targets ↔
      code.HasSwitchAt (l.addr + d) targets := by
  constructor
  · intro h
    cases ha : l.addr.offset d with
    | none =>
      rw [ha] at h
      cases h
    | some a =>
      rw [ha] at h
      obtain ⟨p, hp, ht⟩ := Option.bind_eq_some_iff.mp h
      obtain ⟨hmem, rfl⟩ := (Code.at?_eq_some_iff sorted).mp hp
      exact ⟨p, hmem, (offset_eq_some_iff short hl hd).mp ha, ht⟩
  · rintro ⟨p, hp, ha, ht⟩
    rw [(offset_eq_some_iff short hl hd).mpr ha]
    exact Option.bind_eq_some_iff.mpr ⟨p, (Code.at?_eq_some_iff sorted).mpr ⟨hp, rfl⟩, ht⟩

/-- Targets of a switch, by the numbers of the ways out. -/
theorem switchTargets_getElem?_iff {d : Int} (hd : IsSigned 32 d) {k : Nat} {a : Address} :
    (((switchTargetsAt code (l.addr.offset d)).getD []).map l.addr.offset)[k]? = some (some a) ↔
      ∃ targets t, code.HasSwitchAt (l.addr + d) targets ∧ targets[k]? = some t ∧
        (a : Int) = l.addr + t := by
  have signed {targets : List Int} (h : code.HasSwitchAt (l.addr + d) targets) {t : Int}
      (ht : t ∈ targets) : IsSigned 32 t := by
    obtain ⟨p, hp, -, hs⟩ := h
    rw [Instruction.distance_of_switchTargets hs] at ht
    exact (short p hp).isSigned t ht
  simp only [← switchTargetsAt_eq_some_iff sorted short hl hd] at signed ⊢
  cases hs : switchTargetsAt code (l.addr.offset d) with
  | none => simp
  | some targets =>
    simp only [Option.getD_some, List.getElem?_map, Option.map_eq_some_iff, Option.some.injEq,
      exists_and_left, exists_eq_left']
    refine exists_congr fun t => and_congr_right fun ht => ?_
    exact offset_eq_some_iff short hl (signed hs (List.mem_of_getElem? ht))

/-- The followers are the addresses that the ways out lead to, by their numbers. -/
theorem followers_getElem?_iff {k : Nat} {a : Address} :
    (followers code l)[k]? = some (some a) ↔ LeadsTo code l k a := by
  have signed {d : Int} (hf : l.instr.flow = .goto d ∨ l.instr.flow = .branch d ∨
      l.instr.flow = .switch d) : IsSigned 32 d :=
    (short l hl).isSigned d (Instruction.distance_of_flow hf)
  rw [followers, leadsTo_iff]
  cases hf : l.instr.flow with
  | next =>
    simp only [Instruction.FallsThrough, hf]
    cases k <;> simp [eq_comm]
  | stop => simp [Instruction.FallsThrough, hf]
  | payload => simp [Instruction.FallsThrough, hf]
  | goto d =>
    have target := offset_eq_some_iff short hl (a := a) (signed (.inl hf))
    simp only [Instruction.FallsThrough, hf]
    cases k <;> simp [target]
  | branch d =>
    have target := offset_eq_some_iff short hl (a := a) (signed (.inr (.inl hf)))
    simp only [Instruction.FallsThrough, hf]
    rcases k with _ | _ | k
    · simp [eq_comm]
    · simp [target]
    · simp
  | switch d =>
    have targets (k : Nat) := switchTargets_getElem?_iff sorted short hl (k := k) (a := a)
      (signed (.inr (.inr hf)))
    simp only [Instruction.FallsThrough, hf]
    cases k with
    | zero => simp [eq_comm]
    | succ k =>
      rw [List.getElem?_cons_succ, targets]
      simp

/-- The successors are the instructions of the body that the ways out lead to, in their order. -/
theorem firstOccurrences_successors {instrs : List Located}
    (body : instrs.Pairwise fun k l => k.addr < l.addr) :
    FirstOccurrences (fun k j => ∃ m, instrs[j]? = some m ∧ LeadsTo code l k m.addr)
      (successors code instrs l) := by
  refine (firstOccurrences_filterMap (positionOf instrs) (followers code l)).congr fun k j => ?_
  constructor
  · rintro ⟨_ | a, hk, hj⟩
    · cases hj
    · obtain ⟨m, hm, rfl⟩ := (positionOf_eq_some_iff body).mp hj
      exact ⟨m, hm, (followers_getElem?_iff sorted short hl).mp hk⟩
  · rintro ⟨m, hm, hk⟩
    exact ⟨some m.addr, (followers_getElem?_iff sorted short hl).mpr hk,
      (positionOf_eq_some_iff body).mpr ⟨m, hm, rfl⟩⟩

end

end Located

/-! ## Addresses in the body -/

/-- An address is out of the body if no instruction of the body starts there. -/
theorem Code.outOfBody_iff {units : List UInt16} {code : Code}
    (tiles : Instruction.Tiles units units.length code.instrs) {addr : Int} :
    code.OutOfBody addr ↔ ∀ m ∈ Registry.bodyInstrs code, (m.addr : Int) ≠ addr := by
  constructor
  · rintro h m hm rfl
    obtain ⟨hm, body⟩ := List.mem_filter.mp hm
    have ahead : m.addr < m.nextAddr := Nat.lt_add_of_pos_right m.instr.size_pos
    cases h with
    | beforeEntry h => exact absurd h (Int.not_lt.mpr (Int.natCast_nonneg _))
    | behindEnd h => exact absurd (Int.ofNat_le.mp (h m hm)) (Nat.not_le_of_lt ahead)
    | inside l hl h =>
      have behind := tiles.nextAddr_le_addr hl hm (Int.ofNat_lt.mp h.1)
      exact absurd (Int.ofNat_lt.mp h.2) (Nat.not_lt_of_le behind)
    | payload l hl hp h =>
      have at_l := (Code.at?_eq_some_iff tiles.sorted).mpr ⟨hl, Int.ofNat.inj h⟩
      have at_m := (Code.at?_eq_some_iff tiles.sorted).mpr ⟨hm, rfl⟩
      rw [Option.some.inj (at_l.symm.trans at_m)] at hp
      simp [hp] at body
  · intro free
    rcases Int.lt_or_le addr 0 with negative | nonneg
    · exact .beforeEntry negative
    obtain ⟨a, rfl⟩ := Int.eq_ofNat_of_zero_le nonneg
    rcases Nat.lt_or_ge a units.length with within | past
    · -- the address lies in a tile, and not at the start of an instruction of the body
      obtain ⟨l, hl, hle, hlt⟩ := tiles.covers within
      rcases Nat.eq_or_lt_of_le hle with rfl | later
      · refine .payload l hl ?_ rfl
        by_contra body
        exact free l (List.mem_filter.mpr ⟨hl, by simpa using body⟩) rfl
      · exact .inside l hl ⟨Int.ofNat_lt.mpr later, Int.ofNat_lt.mpr hlt⟩
    · refine .behindEnd fun l hl => Int.ofNat_le.mpr ?_
      exact Nat.le_trans (tiles.nextAddr_le_length hl) past

theorem Registry.value_body_ne_malformedBody (r : Registry) (uid : Nat) (fault : BodyFault) :
    (r.body uid).value ≠ .error (.malformedBody fault) := by
  rw [Registry.body]
  cases r.entries[uid]? with
  | none => simp
  | some entry =>
    rcases entry.body_cases with ⟨_, b, -, -, hb, -⟩ | ⟨-, -, hb | ⟨e, hb⟩⟩ <;> simp [hb]

/-- **Successors are exact**: of the instructions of decoded code that are no payloads, each has
one list of successors, without repetition and inside the body. It holds the instructions that
control may go to, in the order of the ways out, so the next instruction comes first and the
targets follow in their order; ways that lead out of the body are passed over. Therefore code
always makes a body, and no body is malformed. -/
theorem successors_exact {b : Bytes} {offset : Nat} {code : Code}
    (h : Dex.codeAt b offset = .ok code) :
    let instrs := Registry.bodyInstrs code
    let lists := instrs.map (Located.successors code instrs)
    lists.length = instrs.length ∧
      (∀ (i : Nat) l, instrs[i]? = some l → ∃ list : List Nat, lists[i]? = some list ∧ list.Nodup ∧
        (∀ j ∈ list, j < instrs.length) ∧
        (∀ j, j ∈ list ↔ ∃ m, instrs[j]? = some m ∧ Located.IsFollowedBy code l m) ∧
        list.Pairwise (OccursBefore fun k j =>
          ∃ m, instrs[j]? = some m ∧ Located.LeadsTo code l k m.addr)) ∧
      (∀ addr, code.OutOfBody addr ↔ ∀ m ∈ instrs, (m.addr : Int) ≠ addr) ∧
      (∀ dex, ∃ body, (Registry.bodyOfCode dex code).value = .ok body ∧ body.successors = lists) ∧
      ∀ (r : Registry) uid fault, (r.body uid).value ≠ .error (.malformedBody fault) := by
  intro instrs lists
  obtain ⟨units, -, swept⟩ := Dex.sweep_of_codeAt h
  have tiles := (Instruction.sweep_eq_ok_iff.mp swept).tiles
  have body : instrs.Pairwise fun k l => k.addr < l.addr :=
    tiles.sorted.sublist List.filter_sublist
  refine ⟨List.length_map _, fun i l hi => ?_, fun addr => Code.outOfBody_iff tiles,
    fun dex => ?_, Registry.value_body_ne_malformedBody⟩
  · have hl : l ∈ code.instrs := List.mem_of_mem_filter (List.mem_of_getElem? hi)
    have listed := Located.firstOccurrences_successors tiles.sorted
      (fun l hl => Dex.isShort_of_codeAt h hl) hl body
    refine ⟨_, by rw [List.getElem?_map, hi]; rfl, listed.nodup,
      fun j hj => Located.lt_of_mem_successors hj, fun j => ?_, listed.ordered⟩
    rw [listed.mem_iff j, exists_comm]
    exact exists_congr fun m => by rw [exists_and_left, Located.isFollowedBy_iff]
  · obtain ⟨made, hb, -, hs⟩ := Registry.exists_bodyOfCode_successors dex code
    exact ⟨made, hb, hs⟩

/-- A switch before a return. The targets of its payload are the switch itself, the return, the
payload, an address before the entry, and one inside the switch. -/
def switchItem : Bytes :=
  [1, 0, 0, 0, 0, 0, 0, 0, 0, 0, 0, 0, 18, 0, 0, 0] ++
    ([0x002b, 4, 0, 0x000e, 0x0100, 5, 0, 0, 0, 0, 3, 0, 4, 0, 0xffff, 0xffff, 1, 0].flatMap
      Bytes.le16)

theorem switchItem_successors :
    ∃ code, Dex.codeAt switchItem 0 = .ok code ∧
      (Registry.bodyInstrs code).map (Located.successors code (Registry.bodyInstrs code)) =
        [[1, 0], []] ∧
      Located.IsFollowedBy code ⟨0, 0x2b, .regBranch 0 4⟩ ⟨3, 0x0e, .none⟩ ∧
      Located.IsFollowedBy code ⟨0, 0x2b, .regBranch 0 4⟩ ⟨0, 0x2b, .regBranch 0 4⟩ ∧
      code.OutOfBody 4 ∧ code.OutOfBody (-1) ∧ code.OutOfBody 1 := by
  have item : Dex.codeAt switchItem 0 = .ok ⟨1, 0, 0, [⟨0, 0x2b, .regBranch 0 4⟩,
    ⟨3, 0x0e, .none⟩, ⟨4, 0, .packedSwitch 0 [0, 3, 4, -1, 1]⟩]⟩ := by decide +kernel
  obtain ⟨-, lists, out, -⟩ := successors_exact item
  obtain ⟨list, hlist, -, -, mem, -⟩ := lists 0 _ rfl
  obtain rfl : [1, 0] = list := Option.some.inj hlist
  refine ⟨_, item, rfl, ?_, ?_, (out 4).mpr ?_, (out (-1)).mpr ?_, (out 1).mpr ?_⟩
  · obtain ⟨m, hm, follows⟩ := (mem 1).mp (by decide)
    exact Option.some.inj hm ▸ follows
  · obtain ⟨m, hm, follows⟩ := (mem 0).mp (by decide)
    exact Option.some.inj hm ▸ follows
  all_goals decide

end PermissionAudit
