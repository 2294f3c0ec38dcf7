import PermissionAudit.Proofs.Dex.Sweep
import PermissionAudit.Registry.Body

/-!
Bodies of registered methods. Code that can be decoded always makes a body, since
only positions of its own instructions become successors; so a method is without
a body only if it has no code or its code cannot be read. The target of a call in
a body is known exactly if the method it names can be resolved.
-/

namespace PermissionAudit

theorem Body.make_eq_ok {instrs : List BodyInstr} {successors : List (List Nat)}
    (hl : successors.length = instrs.length) (hs : ∀ s ∈ successors.flatten, s < instrs.length) :
    Body.make instrs successors = .ok ⟨instrs, successors, hl, hs⟩ := by
  rw [Body.make, dif_pos hl]
  split
  · rename_i bad hf
    have hle : instrs.length ≤ bad := by simpa using List.find?_some hf
    have hlt := hs bad (List.mem_of_find?_eq_some hf)
    omega
  · rfl

theorem Located.lt_of_mem_successors {code : Code} {instrs : List Located} {l : Located} {s : Nat}
    (h : s ∈ successors code instrs l) : s < instrs.length := by
  rw [successors, mem_distinct] at h
  obtain ⟨addr, -, ha⟩ := List.mem_filterMap.mp h
  cases addr with
  | none => simp [positionOf] at ha
  | some a => exact (List.findIdx?_eq_some_iff_getElem.mp ha).1

namespace Registry

/-- An instruction of code as part of a body. -/
def bodyInstr (dex : Dex) (l : Located) : BodyInstr := ⟨l.addr, l.textOrRaw dex, l.callTarget? dex⟩

/-- Code makes a body, with the successors of each of its instructions. -/
theorem exists_bodyOfCode_successors (dex : Dex) (code : Code) :
    ∃ b, (bodyOfCode dex code).value = .ok b ∧
      b.instrs = (bodyInstrs code).map (bodyInstr dex) ∧
      b.successors = (bodyInstrs code).map (Located.successors code (bodyInstrs code)) := by
  have bounded : ∀ s ∈ ((bodyInstrs code).map
      (Located.successors code (bodyInstrs code))).flatten,
      s < ((bodyInstrs code).map (bodyInstr dex)).length := by
    intro s hs
    obtain ⟨ss, hss, hs⟩ := List.mem_flatten.mp hs
    obtain ⟨l, -, rfl⟩ := List.mem_map.mp hss
    simpa using Located.lt_of_mem_successors hs
  have made := Body.make_eq_ok (by simp) bounded
  exact ⟨_, mapError_eq_ok_iff.mpr made, rfl, rfl⟩

theorem exists_bodyOfCode (dex : Dex) (code : Code) :
    ∃ b, (bodyOfCode dex code).value = .ok b ∧
      b.instrs = (bodyInstrs code).map (bodyInstr dex) := by
  obtain ⟨b, hb, hi, -⟩ := exists_bodyOfCode_successors dex code
  exact ⟨b, hb, hi⟩

end Registry

/-! ## Code of a method -/

theorem isBodiless_eq_false_iff {flags : Nat} :
    Dex.MethodFlags.isBodiless flags = false ↔
      flags &&& Dex.MethodFlags.abstractBit = 0 ∧ flags &&& Dex.MethodFlags.nativeBit = 0 := by
  have split : flags &&& (Dex.MethodFlags.abstractBit ||| Dex.MethodFlags.nativeBit) =
      flags &&& Dex.MethodFlags.abstractBit ||| flags &&& Dex.MethodFlags.nativeBit :=
    Nat.and_or_distrib_left ..
  simp [Dex.MethodFlags.isBodiless, Dex.MethodFlags.intersects, split, Nat.or_eq_zero_iff]

namespace MethodEntry

/-- The method is neither abstract nor native, and has code that can be read. -/
structure HasCode (entry : MethodEntry) (code : Code) : Prop where
  not_abstract : entry.encoded.flags &&& Dex.MethodFlags.abstractBit = 0
  not_native : entry.encoded.flags &&& Dex.MethodFlags.nativeBit = 0
  decoded : entry.dex.code entry.encoded = .ok (some code)

/-- The instructions of a method, without payloads; none if there is no code. -/
def instrs (entry : MethodEntry) : List Located :=
  match Dex.MethodFlags.isBodiless entry.encoded.flags, entry.dex.code entry.encoded with
  | false, .ok (some code) => Registry.bodyInstrs code
  | _, _ => []

/-- A method has the body of its instructions, or none of both. -/
theorem body_cases (entry : MethodEntry) :
    (∃ code b, entry.HasCode code ∧ entry.instrs = Registry.bodyInstrs code ∧
        entry.body.value = .ok b ∧ b.instrs = entry.instrs.map (Registry.bodyInstr entry.dex)) ∨
      (∀ code, ¬ entry.HasCode code) ∧ entry.instrs = [] ∧
        (entry.body.value = .error .noCode ∨ ∃ e, entry.body.value = .error (.dex e)) := by
  rw [MethodEntry.body, instrs]
  cases hb : Dex.MethodFlags.isBodiless entry.encoded.flags with
  | true =>
    refine .inr ⟨fun code h => ?_, rfl, .inl rfl⟩
    rw [isBodiless_eq_false_iff.mpr ⟨h.not_abstract, h.not_native⟩] at hb
    cases hb
  | false =>
    obtain ⟨ha, hn⟩ := isBodiless_eq_false_iff.mp hb
    match hc : entry.dex.code entry.encoded with
    | .error e =>
      refine .inr ⟨fun code h => ?_, rfl, .inr ⟨e, rfl⟩⟩
      exact absurd (hc.symm.trans h.decoded) (by simp)
    | .ok none =>
      refine .inr ⟨fun code h => ?_, rfl, .inl rfl⟩
      exact absurd (hc.symm.trans h.decoded) (by simp)
    | .ok (some code) =>
      obtain ⟨b, hb, hi⟩ := Registry.exists_bodyOfCode entry.dex code
      exact .inl ⟨code, b, ⟨ha, hn, hc⟩, rfl, hb, hi⟩

theorem mem_instrs_iff {entry : MethodEntry} {l : Located} :
    l ∈ entry.instrs ↔
      ∃ code, entry.HasCode code ∧ l ∈ code.instrs ∧ l.instr.isPayload = false := by
  rcases entry.body_cases with ⟨code, b, hc, hi, -⟩ | ⟨hc, hi, -⟩
  · have only : ∀ code', entry.HasCode code' → code' = code := fun code' hc' =>
      Option.some.inj (Except.ok.inj (hc'.decoded.symm.trans hc.decoded))
    rw [hi, Registry.bodyInstrs, List.mem_filter, Bool.not_eq_true']
    refine ⟨fun hl => ⟨code, hc, hl⟩, ?_⟩
    rintro ⟨code', hc', hl⟩
    exact only code' hc' ▸ hl
  · rw [hi]
    simp [hc]

theorem addresses_instrs (entry : MethodEntry) :
    entry.instrs.Pairwise fun k l => k.addr < l.addr := by
  rcases entry.body_cases with ⟨code, b, hc, hi, -⟩ | ⟨-, hi, -⟩
  · rw [hi]
    exact (Dex.addresses_of_code hc.decoded).sublist List.filter_sublist
  · rw [hi]
    exact .nil

theorem value_body_ne_methodNotFound (entry : MethodEntry) (uid : Nat) :
    entry.body.value ≠ .error (.methodNotFound uid) := by
  rcases entry.body_cases with ⟨_, b, -, -, hb, -⟩ | ⟨-, -, hb | ⟨e, hb⟩⟩ <;> simp [hb]

end MethodEntry

/-! ## Call targets -/

/-- The class whose methods a type has. Types that are no references have none. -/
inductive Dex.DefinedBy : Descriptor → String → Prop where
  | object (name : String) : DefinedBy (.object name) (Fields.replace '/' '.' name)
  | array (dims : Nat) (element : Descriptor) :
      DefinedBy (.array dims element) "java.lang.reflect.Array"

/-- The instruction invokes the method of a name on a class; custom calls have no method. -/
def Located.Invokes (dex : Dex) (l : Located) (className name : String) : Prop :=
  ∃ kind index id definer, l.instr.invoke? = some (kind, index) ∧ kind ≠ .custom ∧
    dex.methods[index]? = some id ∧ dex.type id.definer = .ok definer ∧
    Dex.DefinedBy definer className ∧ dex.string id.name = .ok name

theorem Dex.definerName?_eq_some_iff {type : Descriptor} {className : String} :
    Dex.definerName? type = some className ↔ Dex.DefinedBy type className := by
  constructor
  · intro h
    unfold Dex.definerName? at h
    split at h
    · exact Option.some.inj h ▸ .array _ _
    · exact Option.some.inj h ▸ .object _
    · cases h
  · rintro (_ | _) <;> rfl

theorem Dex.entry_eq_ok_iff {α : Type} {resource : Resource} {table : List α} {index : Nat}
    {item : α} : Dex.entry resource table index = .ok item ↔ table[index]? = some item := by
  rw [Dex.entry]
  cases table[index]? <;> simp

theorem Dex.callTarget_eq_ok_iff {dex : Dex} {index : Nat} {dispatch : Dispatch}
    {t : CallTarget} :
    dex.callTarget index dispatch = .ok t ↔
      ∃ id definer, dex.methods[index]? = some id ∧ dex.type id.definer = .ok definer ∧
        DefinedBy definer t.className ∧ dex.string id.name = .ok t.methodName ∧
        t.dispatch = dispatch := by
  simp only [callTarget, bind_eq_ok_iff, mapError_eq_ok_iff, entry_eq_ok_iff]
  refine exists_congr fun id => ?_
  constructor
  · rintro ⟨hid, definer, hd, h⟩
    cases hn : definerName? definer with
    | none => simp [hn] at h
    | some className =>
      simp only [hn, bind_eq_ok_iff, mapError_eq_ok_iff] at h
      obtain ⟨name, hname, heq⟩ := h
      obtain rfl := Except.ok.inj heq
      exact ⟨definer, hid, hd, definerName?_eq_some_iff.mp hn, hname, rfl⟩
  · rintro ⟨definer, hid, hd, hn, hname, rfl⟩
    refine ⟨hid, definer, hd, ?_⟩
    simp only [definerName?_eq_some_iff.mpr hn, bind_eq_ok_iff, mapError_eq_ok_iff]
    exact ⟨t.methodName, hname, rfl⟩

theorem InvokeKind.exists_dispatch?_iff {kind : InvokeKind} :
    (∃ dispatch, kind.dispatch? = some dispatch) ↔ kind ≠ .custom := by
  cases kind <;> simp [dispatch?]

/-- A target is known for an instruction that invokes a method. -/
theorem Located.invokes_iff {dex : Dex} {l : Located} {className name : String} :
    l.Invokes dex className name ↔
      ∃ dispatch, l.callTarget? dex = some (.ok ⟨className, name, dispatch⟩) := by
  simp only [Invokes, callTarget?, Option.map_eq_some_iff, Prod.exists,
    ← InvokeKind.exists_dispatch?_iff]
  constructor
  · rintro ⟨kind, index, id, definer, hinvoke, ⟨dispatch, hk⟩, hid, hd, hdef, hname⟩
    refine ⟨dispatch, kind, index, hinvoke, ?_⟩
    rw [hk]
    exact Dex.callTarget_eq_ok_iff.mpr ⟨id, definer, hid, hd, hdef, hname, rfl⟩
  · rintro ⟨dispatch, kind, index, hinvoke, h⟩
    split at h
    · rename_i selected hk
      obtain ⟨id, definer, hid, hd, hdef, hname, -⟩ := Dex.callTarget_eq_ok_iff.mp h
      exact ⟨kind, index, id, definer, hinvoke, ⟨selected, hk⟩, hid, hd, hdef, hname⟩
    · cases h

end PermissionAudit
