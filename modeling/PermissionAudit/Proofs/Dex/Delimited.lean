import PermissionAudit.Proofs.Dex.Decoded

/-!
Instructions end where their own units say. What is decoded at the front of some
units depends on the units of the instruction alone, so anything may follow them;
units that stop inside an instruction are truncated, and units that are no
instruction stay so whatever follows. Code can therefore be decoded in parts.
-/

namespace PermissionAudit

namespace Instruction

/-! ## Equal beginnings -/

section

variable {u v : List UInt16} {n : Nat}

theorem unitAt_of_take_eq (h : u.take n = v.take n) {i : Nat} (hi : i < n) :
    unitAt u i = unitAt v i := by
  have same : u[i]? = v[i]? := by
    rw [← List.getElem?_take_of_lt hi, h, List.getElem?_take_of_lt hi]
  rw [unitAt, same, unitAt]

theorem wideAt_of_take_eq (h : u.take n = v.take n) {i : Nat} (hi : i + 1 < n) :
    wideAt u i = wideAt v i := by
  rw [wideAt, wideAt, unitAt_of_take_eq h (Nat.lt_of_succ_lt hi), unitAt_of_take_eq h hi]

theorem take_eq_of_le (h : u.take n = v.take n) {m : Nat} (hm : m ≤ n) : u.take m = v.take m := by
  rw [← Nat.min_eq_left hm, ← List.take_take, h, List.take_take]

theorem le_length_of_take_eq (h : u.take n = v.take n) (hn : n ≤ u.length) : n ≤ v.length := by
  have same := congrArg List.length h
  rw [List.length_take, List.length_take] at same
  omega

/-- Numbers of two units each are read from as many pairs as there are numbers. -/
theorem wideInts_take (count : Nat) (units : List UInt16) :
    wideInts count (units.take (2 * count)) = wideInts count units := by
  induction count generalizing units with
  | zero => rfl
  | succ count ih =>
    rcases units with _ | ⟨lo, _ | ⟨hi, rest⟩⟩
    · rfl
    · rfl
    · rw [Nat.mul_succ, List.take_succ_cons, List.take_succ_cons, wideInts, wideInts, ih]

theorem wideInts_of_take_eq (h : u.take n = v.take n) (start count : Nat)
    (hn : start + 2 * count ≤ n) :
    wideInts count (u.drop start) = wideInts count (v.drop start) := by
  rw [← wideInts_take, ← wideInts_take count (v.drop start), List.take_drop, List.take_drop,
    take_eq_of_le h hn]

theorem operandsOf_of_take_eq {format : Opcode.Format}
    (h : u.take format.units = v.take format.units) (opcode hi : Nat) (addr : Address) :
    operandsOf format opcode hi u addr = operandsOf format opcode hi v addr := by
  have same (i : Nat) (hi : i < format.units) : unitAt u i = unitAt v i := unitAt_of_take_eq h hi
  cases format <;> simp (disch := decide) only [operandsOf, wideAt, same]

end

/-! ## Payloads -/

/-- The first unit of a payload. Its high byte is the kind. -/
def IsPayloadHead (first : UInt16) : Prop :=
  first.toNat % 256 = 0 ∧ 1 ≤ first.toNat / 256 ∧ first.toNat / 256 ≤ 3

instance (first : UInt16) : Decidable (IsPayloadHead first) :=
  inferInstanceAs (Decidable (_ ∧ _ ∧ _))

section

variable {u v : List UInt16} {kind : Nat}

/-- The size of a payload is known from its fixed part. -/
theorem payloadSize_of_take_eq (hk : 1 ≤ kind ∧ kind ≤ 3)
    (h : u.take (payloadFixed kind) = v.take (payloadFixed kind)) :
    payloadSize kind u = payloadSize kind v := by
  obtain rfl | rfl | rfl : kind = 1 ∨ kind = 2 ∨ kind = 3 := by omega
  · show 4 + 2 * unitAt u 1 = 4 + 2 * unitAt v 1
    rw [unitAt_of_take_eq h (by decide)]
  · show 2 + 4 * unitAt u 1 = 2 + 4 * unitAt v 1
    rw [unitAt_of_take_eq h (by decide)]
  · show 4 + (unitAt u 1 * wideAt u 2 + 1) / 2 = 4 + (unitAt v 1 * wideAt v 2 + 1) / 2
    rw [unitAt_of_take_eq h (by decide), wideAt_of_take_eq h (by decide)]

theorem payloadOf_of_take_eq (hk : 1 ≤ kind ∧ kind ≤ 3)
    (h : u.take (payloadSize kind u) = v.take (payloadSize kind u)) :
    payloadOf kind u = payloadOf kind v := by
  have entries : unitAt u 1 = unitAt v 1 := by
    refine unitAt_of_take_eq h (Nat.lt_of_lt_of_le ?_ (payloadFixed_le_payloadSize kind u))
    rw [payloadFixed]
    split <;> decide
  obtain rfl | rfl | rfl : kind = 1 ∨ kind = 2 ∨ kind = 3 := by omega
  · have h : u.take (4 + 2 * unitAt u 1) = v.take (4 + 2 * unitAt u 1) := h
    show Operands.packedSwitch _ (wideInts (unitAt u 1) _) =
      .packedSwitch _ (wideInts (unitAt v 1) _)
    rw [← entries, wideAt_of_take_eq h (by omega), wideInts_of_take_eq h 4 _ (Nat.le_refl _)]
  · have h : u.take (2 + 4 * unitAt u 1) = v.take (2 + 4 * unitAt u 1) := h
    show Operands.sparseSwitch ((wideInts (unitAt u 1) _).zip (wideInts (unitAt u 1) _)) =
      .sparseSwitch ((wideInts (unitAt v 1) _).zip (wideInts (unitAt v 1) _))
    rw [← entries, wideInts_of_take_eq h 2 _ (by omega),
      wideInts_of_take_eq h (2 + 2 * unitAt u 1) _ (by omega)]
  · have h : u.take (4 + (unitAt u 1 * wideAt u 2 + 1) / 2) = _ := h
    show Operands.fillArrayData (unitAt u 1) _ = .fillArrayData (unitAt v 1) _
    rw [← entries, wideAt_of_take_eq h (by omega)]

/-- A beginning that is shorter than a payload does not hold all that it calls for. -/
theorem lt_payloadSize_take (hk : 1 ≤ kind ∧ kind ≤ 3) {k : Nat} (h : k < payloadSize kind u) :
    k < payloadSize kind (u.take k) := by
  rcases Nat.lt_or_ge k (payloadFixed kind) with short | fixed
  · exact Nat.lt_of_lt_of_le short (payloadFixed_le_payloadSize kind _)
  · rwa [payloadSize_of_take_eq hk (v := u)]
    rw [List.take_take, Nat.min_eq_left fixed]

end

/-! ## What decoding does, by the first unit -/

section

variable {first : UInt16} (rest : List UInt16) (addr : Address)

theorem decode_payload (h : IsPayloadHead first) :
    decode (first :: rest) addr =
      if payloadSize (first.toNat / 256) (first :: rest) ≤ (first :: rest).length then
        .ok ⟨0, payloadOf (first.toNat / 256) (first :: rest)⟩
      else .error (.truncated addr) := by
  rw [decode, if_pos (show _ ∧ _ ∧ _ from h), decodePayload_eq]

theorem decode_unknown (h : ¬ IsPayloadHead first)
    (unknown : Opcode.describe? (first.toNat % 256) = none) :
    decode (first :: rest) addr = .error (.unknownOpcode (first.toNat % 256) addr) := by
  rw [decode, if_neg (show ¬ (_ ∧ _ ∧ _) from h), unknown]

theorem decode_layout (h : ¬ IsPayloadHead first) {description : Opcode.Description}
    (known : Opcode.describe? (first.toNat % 256) = some description) :
    decode (first :: rest) addr =
      if description.format.units ≤ (first :: rest).length then
        (operandsOf description.format (first.toNat % 256) (first.toNat / 256) (first :: rest)
          addr).map fun operands => ⟨first.toNat % 256, operands⟩
      else .error (.truncated addr) := by
  rw [decode, if_neg (show ¬ (_ ∧ _ ∧ _) from h), known]
  exact if_congr fits_iff rfl rfl

variable {rest addr}

/-- A decoded instruction is a payload, or it has the layout of its opcode. Its size is that which
its first units call for. -/
theorem decode_cases {i : Instruction} (h : decode (first :: rest) addr = .ok i) :
    (IsPayloadHead first ∧ i = ⟨0, payloadOf (first.toNat / 256) (first :: rest)⟩ ∧
        i.size = payloadSize (first.toNat / 256) (first :: rest)) ∨
      ¬ IsPayloadHead first ∧ ∃ description operands,
        Opcode.describe? (first.toNat % 256) = some description ∧
        operandsOf description.format (first.toNat % 256) (first.toNat / 256) (first :: rest) addr =
          .ok operands ∧
        i = ⟨first.toNat % 256, operands⟩ ∧ i.size = description.format.units := by
  by_cases payload : IsPayloadHead first
  · rw [decode_payload _ _ payload] at h
    split at h
    · rename_i whole
      obtain rfl := Except.ok.inj h
      exact .inl ⟨payload, rfl, size_payloadOf whole⟩
    · cases h
  · rcases known : Opcode.describe? (first.toNat % 256) with _ | description
    · rw [decode_unknown _ _ payload known] at h
      cases h
    · rw [decode_layout _ _ payload known] at h
      split at h
      · obtain ⟨operands, ho, rfl⟩ := map_eq_ok_iff.mp h
        have small := UInt16.toNat_lt first
        obtain ⟨layout, -⟩ := operands_of_layout (by omega) ho
        exact .inr ⟨payload, description, operands, rfl, ho, rfl, size_of_layout layout known⟩
      · cases h

end

/-! ## Beginnings and continuations -/

/-- A decoded instruction is decoded again from any units that begin with its own. -/
theorem decode_of_take_eq {u v : List UInt16} {addr : Address} {i : Instruction}
    (h : decode u addr = .ok i) (same : u.take i.size = v.take i.size) :
    decode v addr = .ok i := by
  have whole : i.size ≤ v.length := le_length_of_take_eq same (decode_inside h).1
  obtain ⟨more, hm⟩ := Nat.exists_eq_succ_of_ne_zero (Nat.ne_of_gt i.size_pos)
  rcases u with _ | ⟨first, rest⟩
  · cases h
  rcases v with _ | ⟨first', rest'⟩
  · rw [hm] at whole
    cases whole
  obtain rfl : first = first' := by
    rw [hm, List.take_succ_cons, List.take_succ_cons] at same
    exact (List.cons.inj same).1
  rcases decode_cases h with
    ⟨payload, hi, size⟩ | ⟨other, description, operands, known, ho, hi, size⟩
  · rw [size] at same whole
    have size' : payloadSize _ (first :: rest) = payloadSize _ (first :: rest') :=
      payloadSize_of_take_eq payload.2 (take_eq_of_le same (payloadFixed_le_payloadSize _ _))
    rw [decode_payload _ _ payload, ← size', if_pos whole, ← payloadOf_of_take_eq payload.2 same,
      hi]
  · rw [size] at same whole
    rw [decode_layout _ _ other known, if_pos whole, ← operandsOf_of_take_eq same, ho, hi]
    rfl

/-- Units that stop inside an instruction are truncated. -/
theorem decode_take {u : List UInt16} {addr : Address} {i : Instruction}
    (h : decode u addr = .ok i) {k : Nat} (hk : k < i.size) :
    decode (u.take k) addr = .error (.truncated addr) := by
  rcases u with _ | ⟨first, rest⟩
  · cases h
  cases k with
  | zero => rfl
  | succ k =>
    have short : (first :: rest.take k).length ≤ k + 1 := by
      rw [List.length_cons, List.length_take]
      omega
    rw [List.take_succ_cons]
    rcases decode_cases h with ⟨payload, -, size⟩ | ⟨other, description, -, known, -, -, size⟩
    · have missing := lt_payloadSize_take payload.2 (size ▸ hk)
      rw [decode_payload _ _ payload, if_neg]
      exact Nat.not_le_of_lt (Nat.lt_of_le_of_lt short missing)
    · rw [decode_layout _ _ other known, if_neg]
      omega

theorem operandsOf_eq_error {format : Opcode.Format} {opcode hi : Nat} {units : List UInt16}
    {addr : Address} {e : Fault} (h : operandsOf format opcode hi units addr = .error e) :
    (format = .f35c ∨ format = .f45cc) ∧ 5 < hi / 16 ∧ e = .argumentCount (hi / 16) addr := by
  have count {regs : Nat} (h : argumentList hi regs addr = .error e) :
      5 < hi / 16 ∧ e = .argumentCount (hi / 16) addr := by
    rw [argumentList] at h
    split at h
    · cases h
      exact ⟨‹_›, rfl⟩
    · cases h
  cases format
  case f35c => exact ⟨.inl rfl, count (map_eq_error_iff.mp h)⟩
  case f45cc => exact ⟨.inr rfl, count (map_eq_error_iff.mp h)⟩
  all_goals cases h

/-- The faults other than truncation name what is wrong with the units: an opcode, or a number of
arguments above five in one of the two layouts that list them. -/
theorem decode_error_cases {u : List UInt16} {addr : Address} {e : Fault}
    (h : decode u addr = .error e) :
    e = .truncated addr ∨
      ∃ first rest, u = first :: rest ∧ ¬ IsPayloadHead first ∧
        ((Opcode.describe? (first.toNat % 256) = none ∧
            e = .unknownOpcode (first.toNat % 256) addr) ∨
          ∃ description, Opcode.describe? (first.toNat % 256) = some description ∧
            (description.format = .f35c ∨ description.format = .f45cc) ∧
            description.format.units ≤ u.length ∧
            5 < first.toNat / 256 / 16 ∧ e = .argumentCount (first.toNat / 256 / 16) addr) := by
  rcases u with _ | ⟨first, rest⟩
  · cases h
    exact .inl rfl
  by_cases payload : IsPayloadHead first
  · rw [decode_payload _ _ payload] at h
    split at h
    · cases h
    · cases h
      exact .inl rfl
  · rcases known : Opcode.describe? (first.toNat % 256) with _ | description
    · rw [decode_unknown _ _ payload known] at h
      cases h
      exact .inr ⟨first, rest, rfl, payload, .inl ⟨known, rfl⟩⟩
    · rw [decode_layout _ _ payload known] at h
      split at h
      · rename_i fits
        obtain ⟨lists, many, rfl⟩ := operandsOf_eq_error (map_eq_error_iff.mp h)
        exact .inr ⟨first, rest, rfl, payload, .inr ⟨description, known, lists, fits, many, rfl⟩⟩
      · cases h
        exact .inl rfl

/-- Units that are no instruction stay so, whatever follows them. -/
theorem decode_error_append {u : List UInt16} {addr : Address} {e : Fault}
    (h : decode u addr = .error e) (he : ∀ a, e ≠ .truncated a) (v : List UInt16) :
    decode (u ++ v) addr = .error e := by
  rcases decode_error_cases h with rfl | ⟨first, rest, rfl, other, hcase⟩
  · exact absurd rfl (he addr)
  rw [List.cons_append]
  rcases hcase with ⟨unknown, rfl⟩ | ⟨description, known, -, fits, -, rfl⟩
  · exact decode_unknown _ _ other unknown
  · have fits' : description.format.units ≤ (first :: (rest ++ v)).length := by
      rw [← List.cons_append, List.length_append]
      exact Nat.le_add_right_of_le fits
    have same : (first :: rest).take description.format.units =
        (first :: (rest ++ v)).take description.format.units := by
      rw [← List.cons_append, List.take_append_of_le_length fits]
    rw [decode_layout _ _ other known, if_pos fits] at h
    rw [decode_layout _ _ other known, if_pos fits', ← operandsOf_of_take_eq same, h]

/-! ## Addresses -/

/-- The same fault further on. -/
def Fault.shift (distance : Nat) : Fault → Fault
  | .truncated addr => .truncated (addr + distance)
  | .unknownOpcode opcode addr => .unknownOpcode opcode (addr + distance)
  | .argumentCount count addr => .argumentCount count (addr + distance)

end Instruction

/-- The same instruction further on. -/
def Located.shift (distance : Nat) (l : Located) : Located := ⟨l.addr + distance, l.instr⟩

namespace Instruction

theorem operandsOf_shift (format : Opcode.Format) (opcode hi : Nat) (units : List UInt16)
    (addr : Address) (distance : Nat) :
    operandsOf format opcode hi units (addr + distance) =
      (operandsOf format opcode hi units addr).mapError (Fault.shift distance) := by
  have args (regs : Nat) : argumentList hi regs (addr + distance) =
      (argumentList hi regs addr).mapError (Fault.shift distance) := by
    rw [argumentList, argumentList]
    split <;> rfl
  cases format
  case f35c | f45cc => simp only [operandsOf, args, mapError_map]
  all_goals rfl

/-- The address of an instruction shows in faults only. -/
theorem decode_shift (units : List UInt16) (addr : Address) (distance : Nat) :
    decode units (addr + distance) = (decode units addr).mapError (Fault.shift distance) := by
  rcases units with _ | ⟨first, rest⟩
  · rfl
  by_cases payload : IsPayloadHead first
  · rw [decode_payload _ _ payload, decode_payload _ _ payload]
    split <;> rfl
  · rcases known : Opcode.describe? (first.toNat % 256) with _ | description
    · rw [decode_unknown _ _ payload known, decode_unknown _ _ payload known]
      rfl
    · rw [decode_layout _ _ payload known, decode_layout _ _ payload known]
      split
      · rw [operandsOf_shift, mapError_map]
      · rfl

/-- A sweep that starts further on finds the same further on. -/
theorem sweepFrom_shift (skip : Nat) (addr : Address) (units : List UInt16) (distance : Nat) :
    sweepFrom skip (addr + distance) units =
      ((sweepFrom skip addr units).map (List.map (Located.shift distance))).mapError
        (Fault.shift distance) := by
  induction units generalizing skip addr with
  | nil => rfl
  | cons unit rest ih =>
    cases skip with
    | succ skip => rw [sweepFrom, sweepFrom, Nat.add_right_comm, ih]
    | zero =>
      rw [sweepFrom, sweepFrom, decode_shift]
      cases decode (unit :: rest) addr with
      | error e => rfl
      | ok i =>
        show (sweepFrom (i.size - 1) (addr + distance + 1) rest >>= _) =
          ((sweepFrom (i.size - 1) (addr + 1) rest >>= _).map _).mapError _
        rw [Nat.add_right_comm, ih]
        cases sweepFrom (i.size - 1) (addr + 1) rest <;> rfl

/-! ## Code in parts -/

/-- A sweep through units that are instructions as a whole goes on with what follows them. -/
theorem sweepFrom_append {skip : Nat} {addr : Address} {u : List UInt16} {instrs : List Located}
    (hs : skip ≤ u.length) (h : sweepFrom skip addr u = .ok instrs) (v : List UInt16) :
    sweepFrom skip addr (u ++ v) = (sweepFrom 0 (addr + u.length) v).map (instrs ++ ·) := by
  induction u generalizing skip addr instrs with
  | nil =>
    obtain rfl : skip = 0 := Nat.le_zero.mp hs
    obtain rfl := Except.ok.inj h
    show sweepFrom 0 addr v = (sweepFrom 0 addr v).map id
    cases sweepFrom 0 addr v <;> rfl
  | cons unit rest ih =>
    rw [List.length_cons, Nat.add_comm rest.length, ← Nat.add_assoc]
    cases skip with
    | succ skip => exact ih (Nat.le_of_succ_le_succ hs) h
    | zero =>
      rw [sweepFrom, bind_eq_ok_iff] at h
      obtain ⟨i, hi, h⟩ := h
      rw [bind_eq_ok_iff] at h
      obtain ⟨later, hlater, h⟩ := h
      obtain rfl := Except.ok.inj h
      have inside : i.size ≤ (unit :: rest).length := (decode_inside hi).1
      have again : decode (unit :: (rest ++ v)) addr = .ok i := by
        refine decode_of_take_eq hi ?_
        rw [← List.cons_append, List.take_append_of_le_length inside]
      rw [List.cons_append, sweepFrom, again]
      show (sweepFrom (i.size - 1) (addr + 1) (rest ++ v) >>= _) = _
      rw [ih (by rw [List.length_cons] at inside; omega) hlater]
      cases sweepFrom 0 (addr + 1 + rest.length) v <;> rfl

/-- **Instructions are self-delimiting**: a decoded instruction is decoded from its own units
followed by anything, and from no shorter beginning of them; units that are no instruction,
although there are enough of them, stay so whatever follows. So code that is swept as a whole can
be followed by more code, whose instructions and faults lie as much further on. -/
theorem decode_self_delimiting (u : List UInt16) (addr : Address) :
    (∀ i, decode u addr = .ok i →
      (∀ v, decode (u.take i.size ++ v) addr = .ok i) ∧
        ∀ k < i.size, decode (u.take k) addr = .error (.truncated addr)) ∧
      (∀ e, decode u addr = .error e → (∀ a, e ≠ .truncated a) →
        ((Opcode.describe? (unitAt u 0 % 256) = none ∧
              e = .unknownOpcode (unitAt u 0 % 256) addr) ∨
            ∃ description, Opcode.describe? (unitAt u 0 % 256) = some description ∧
              (description.format = .f35c ∨ description.format = .f45cc) ∧
              5 < unitAt u 0 / 256 / 16 ∧ e = .argumentCount (unitAt u 0 / 256 / 16) addr) ∧
          ∀ v, decode (u ++ v) addr = .error e) ∧
      ∀ instrs, sweep u = .ok instrs → ∀ v,
        sweep (u ++ v) =
          ((sweep v).map fun more => instrs ++ more.map (Located.shift u.length)).mapError
            (Fault.shift u.length) := by
  refine ⟨fun i h => ⟨fun v => ?_, fun k hk => decode_take h hk⟩,
    fun e h he => ⟨?_, decode_error_append h he⟩, fun instrs h v => ?_⟩
  · refine decode_of_take_eq h ?_
    rw [List.take_append_of_le_length, List.take_take, Nat.min_self]
    rw [List.length_take, Nat.min_eq_left (decode_inside h).1]
  · rcases decode_error_cases h with
      rfl | ⟨first, rest, rfl, -, unknown | ⟨description, known, lists, -, count⟩⟩
    · exact absurd rfl (he addr)
    · exact .inl unknown
    · exact .inr ⟨description, known, lists, count⟩
  · rw [sweep, sweepFrom_append (Nat.zero_le _) h, sweepFrom_shift]
    show _ = ((sweepFrom 0 Address.entry v).map _).mapError _
    cases sweepFrom 0 Address.entry v <;> rfl

/-- A payload with one target, a call with six arguments, and a jump before an unknown opcode. -/
theorem payload_call_jump_self_delimiting :
    decode [0x0100, 1, 7, 0, 5, 0, 0x000e] 3 = .ok ⟨0, .packedSwitch 7 [5]⟩ ∧
      decode ([0x0100, 1, 7, 0, 5, 0] ++ [0x00f0]) 3 = .ok ⟨0, .packedSwitch 7 [5]⟩ ∧
      decode [0x0100, 1, 7, 0, 5] 3 = .error (.truncated 3) ∧
      decode [0x606e, 0, 0] 3 = .error (.argumentCount 6 3) ∧
      decode ([0x606e, 0, 0] ++ [1, 2]) 3 = .error (.argumentCount 6 3) ∧
      sweep [0x0028] = .ok [⟨0, 0x28, .branch 0⟩] ∧
      sweep ([0x0028] ++ [0x00f0]) = .error (.unknownOpcode 0xf0 1) := by
  obtain ⟨whole, part⟩ := (decode_self_delimiting [0x0100, 1, 7, 0, 5, 0, 0x000e] 3).1 _ rfl
  obtain ⟨-, longer⟩ := (decode_self_delimiting [0x606e, 0, 0] 3).2.1 _ rfl (by simp)
  have parts := (decode_self_delimiting [0x0028] 0).2.2 _ rfl [0x00f0]
  exact ⟨rfl, whole [0x00f0], part 5 (by decide), rfl, longer [1, 2], rfl, parts⟩

end Instruction

end PermissionAudit
