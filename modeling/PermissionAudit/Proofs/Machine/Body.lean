import PermissionAudit.Proofs.Machine.Registry
import PermissionAudit.Proofs.Registry.Body

/-!
Bodies of registered methods without a trap. The successors of an instruction
are looked for by address, so that they are positions of the body; writing an
instruction and resolving its call is left to the one who asks for it.
-/

namespace PermissionAudit

theorem Body.lt_of_mem_successorsAt (b : Body) {i s : Nat} (h : s ∈ b.successorsAt i) :
    s < b.instrs.length := by
  rw [successorsAt] at h
  cases hi : b.successors[i]? with
  | none => simp [hi] at h
  | some ss =>
    rw [hi, Option.getD_some] at h
    exact b.successor_lt s (List.mem_flatten.mpr ⟨ss, List.mem_of_getElem? hi, h⟩)

/-- The element that a search finds is the one at the position that it finds. -/
theorem findIdx?_bind_getElem? {α : Type} (p : α → Bool) (xs : List α) :
    (xs.findIdx? p).bind (xs[·]?) = xs.find? p := by
  induction xs with
  | nil => rfl
  | cons x rest ih =>
    rw [List.findIdx?_cons, List.find?_cons]
    cases p x with
    | true => rfl
    | false => simpa [Option.bind_map, Function.comp_def] using ih

namespace Machine

theorem mapM_index {α : Type} {xs : List α} {positions : List Nat}
    (h : ∀ i ∈ positions, i < xs.length) :
    positions.mapM (index xs) = .ok (positions.filterMap (xs[·]?)) := by
  induction positions with
  | nil => rfl
  | cons i rest ih =>
    have found := List.getElem?_eq_getElem (h i List.mem_cons_self)
    rw [List.mapM_cons, index_eq found, ih fun j hj => h j (List.mem_cons_of_mem _ hj),
      List.filterMap_cons_some found]
    rfl

/-! ## Instructions of a body -/

/-- An instruction of a body; its text and the target of its call are computed on demand. -/
structure HostInstr where
  offset : Nat
  text : Run String
  target : Run (Option (Except AnalysisError CallTarget))

structure HostBody where
  instrs : List HostInstr
  successors : List (List Nat)

/-- An instruction that can be written, and whose call can be looked up, without a trap. -/
def HostInstr.of (i : BodyInstr) : HostInstr := ⟨i.offset, .ok i.text.value, .ok i.target⟩

/-- A body of such instructions. -/
def HostBody.of (b : Body) : HostBody := ⟨b.instrs.map .of, b.successors⟩

/-- The target of a call of the method at an index. -/
def callTarget (dex : Dex) (index : Nat) (dispatch : Dispatch) :
    Fallible AnalysisError CallTarget := do
  let id ← mapError .dex (finished (Dex.entry .method dex.methods index))
  let definer ← mapError .dex (type dex id.definer)
  match Dex.definerName? definer with
  | none => throw (.unresolvable (.primitiveDefiner index definer))
  | some className =>
    let name ← mapError .dex (string dex id.name)
    return ⟨className, name, dispatch⟩

/-- The target of an instruction that is a call. -/
def callTarget? (dex : Dex) (l : Located) : Run (Option (Except AnalysisError CallTarget)) :=
  match l.instr.invoke? with
  | none => return none
  | some (kind, index) =>
    match kind.dispatch? with
    | some dispatch => do return some (← (callTarget dex index dispatch).run)
    | none => return some (.error (.unresolvable (.callSite index l.addr)))

def hostInstr (dex : Dex) (l : Located) : HostInstr :=
  ⟨l.addr, textOrRaw dex l, callTarget? dex l⟩

theorem callTarget_eq (dex : Dex) (index : Nat) (dispatch : Dispatch) :
    callTarget dex index dispatch = finished (dex.callTarget index dispatch) := by
  simp only [callTarget, Dex.callTarget, type_eq, string_eq, mapError_finished]
  refine finished_bind fun id _ => ?_
  refine finished_bind fun definer _ => ?_
  cases Dex.definerName? definer with
  | none => rfl
  | some className => exact finished_bind fun name _ => rfl

theorem callTarget?_eq (dex : Dex) (l : Located) : callTarget? dex l = .ok (l.callTarget? dex) := by
  rw [callTarget?, Located.callTarget?]
  cases l.instr.invoke? with
  | none => rfl
  | some call =>
    obtain ⟨kind, index⟩ := call
    simp only [callTarget_eq, Option.map_some]
    cases kind.dispatch? <;> rfl

theorem hostInstr_eq (dex : Dex) {l : Located} (h : l.IsShort) :
    hostInstr dex l = .of (Registry.bodyInstr dex l) := by
  rw [hostInstr, textOrRaw_eq dex h, callTarget?_eq]
  rfl

/-! ## Successors -/

/-- The instruction that starts at an address. -/
def atAddress (code : Code) (addr : Address) : Run (Option Located) :=
  match code.instrs.findIdx? fun l => l.addr = addr with
  | none => return none
  | some i => do return some (← index code.instrs i)

def nextAddr (l : Located) : Run Address := add 64 l.addr l.instr.size

/-- Targets of the switch payload that starts exactly at an address. -/
def switchTargetsAt (code : Code) (addr : Option Address) : Run (Option (List Int)) :=
  match addr with
  | none => return none
  | some a => do return (← atAddress code a).bind (·.instr.switchTargets?)

/-- Addresses that may follow an instruction. -/
def followers (code : Code) (l : Located) : Run (List (Option Address)) :=
  match l.instr.flow with
  | .next => do return [some (← nextAddr l)]
  | .stop | .payload => return []
  | .goto distance => do return [← offset l.addr distance]
  | .branch distance => do return [some (← nextAddr l), ← offset l.addr distance]
  | .switch distance => do
    let next ← nextAddr l
    let targets ← switchTargetsAt code (← offset l.addr distance)
    return some next :: (← (targets.getD []).mapM (offset l.addr))

/-- Positions of the successors of an instruction, without repetition. -/
def successors (code : Code) (instrs : List Located) (l : Located) : Run (List Nat) := do
  return distinct ((← followers code l).filterMap (Located.positionOf instrs))

theorem atAddress_eq (code : Code) (addr : Address) :
    atAddress code addr = .ok (code.at? addr) := by
  rw [atAddress, Code.at?, ← findIdx?_bind_getElem?]
  cases hi : code.instrs.findIdx? fun l => l.addr = addr with
  | none => rfl
  | some i =>
    have inside : i < code.instrs.length := (List.findIdx?_eq_some_iff_getElem.mp hi).1
    have found := List.getElem?_eq_getElem inside
    simp only [index_eq found, Option.bind_some, found]
    rfl

theorem nextAddr_eq {l : Located} (h : l.IsShort) : nextAddr l = .ok l.nextAddr :=
  add_eq (Nat.lt_trans h.nextAddr_lt (by decide))

theorem offset_of_isShort {l : Located} (h : l.IsShort) {d : Int} (hd : IsSigned 32 d) :
    offset l.addr d = .ok (l.addr.offset d) :=
  offset_eq (Nat.lt_of_le_of_lt (Nat.le_add_right _ _) h.nextAddr_lt) hd

theorem switchTargetsAt_eq (code : Code) (addr : Option Address) :
    switchTargetsAt code addr = .ok (Located.switchTargetsAt code addr) := by
  cases addr with
  | none => rfl
  | some a =>
    simp only [switchTargetsAt, atAddress_eq]
    rfl

/-- Targets of a payload are distances of an instruction of the code. -/
theorem isSigned_of_switchTargetsAt {code : Code} (hc : ∀ l ∈ code.instrs, l.IsShort)
    {addr : Option Address} {targets : List Int}
    (h : Located.switchTargetsAt code addr = some targets) : ∀ d ∈ targets, IsSigned 32 d := by
  intro d hd
  cases addr with
  | none => cases h
  | some a =>
    obtain ⟨payload, hp, ht⟩ := Option.bind_eq_some_iff.mp h
    rw [Instruction.distance_of_switchTargets ht] at hd
    exact (hc payload (List.mem_of_find?_eq_some hp)).isSigned d hd

theorem followers_eq {code : Code} (hc : ∀ l ∈ code.instrs, l.IsShort) {l : Located}
    (h : l.IsShort) : followers code l = .ok (l.followers code) := by
  have own {d : Int} (hf : l.instr.flow = .goto d ∨ l.instr.flow = .branch d ∨
      l.instr.flow = .switch d) : offset l.addr d = .ok (l.addr.offset d) :=
    offset_of_isShort h (h.isSigned d (Instruction.distance_of_flow hf))
  rw [followers, Located.followers]
  cases hf : l.instr.flow with
  | next => simp only [nextAddr_eq h]; rfl
  | stop => rfl
  | payload => rfl
  | goto d => simp only [own (.inl hf)]; rfl
  | branch d => simp only [nextAddr_eq h, own (.inr (.inl hf))]; rfl
  | switch d =>
    simp only [nextAddr_eq h, own (.inr (.inr hf)), switchTargetsAt_eq]
    -- targets of a payload are relative to the switch, but their size is known from the payload
    refine (run_bind (mapM_eq_ok fun t ht => offset_of_isShort h ?_) _).trans rfl
    cases hs : Located.switchTargetsAt code (l.addr.offset d) with
    | none => simp [hs] at ht
    | some targets => exact isSigned_of_switchTargetsAt hc hs t (by simpa [hs] using ht)

theorem successors_eq {code : Code} (hc : ∀ l ∈ code.instrs, l.IsShort) (instrs : List Located)
    {l : Located} (h : l.IsShort) :
    successors code instrs l = .ok (l.successors code instrs) := by
  rw [successors, followers_eq hc h]
  rfl

/-! ## Bodies -/

/-- Makes a body when there is one successor list per instruction and every successor is an
instruction. -/
def makeBody (instrs : List HostInstr) (successors : List (List Nat)) :
    Except AnalysisError HostBody :=
  if successors.length = instrs.length then
    match successors.flatten.find? (fun s => instrs.length ≤ s) with
    | some bad => .error (.malformedBody (.successorOutOfBounds bad))
    | none => .ok ⟨instrs, successors⟩
  else
    .error (.malformedBody (.lengthMismatch instrs.length successors.length))

/-- The body of code. -/
def bodyOfCode (dex : Dex) (code : Code) : Fallible AnalysisError HostBody := do
  let instrs := Registry.bodyInstrs code
  let positions ← liftM (instrs.mapM (successors code instrs))
  finished (makeBody (instrs.map (hostInstr dex)) positions)

/-- The body of the method with a number. -/
def body (r : Registry) (uid : Nat) : Fallible AnalysisError HostBody :=
  match r.entries[uid]? with
  | none => throw (.methodNotFound uid)
  | some entry =>
    if Dex.MethodFlags.isBodiless entry.encoded.flags then
      throw .noCode
    else do
      match ← mapError .dex (code entry.dex entry.encoded) with
      | none => throw .noCode
      | some code => bodyOfCode entry.dex code

/-- The successors of the instruction at position `i`. -/
def successorInstrs (b : HostBody) (i : Nat) : Run (List HostInstr) :=
  (b.successors[i]?.getD []).mapM (index b.instrs)

theorem makeBody_eq (instrs : List BodyInstr) (successors : List (List Nat)) :
    makeBody (instrs.map .of) successors =
      ((Body.make instrs successors).mapError .malformedBody).map HostBody.of := by
  rw [makeBody, Body.make, List.length_map]
  by_cases hl : successors.length = instrs.length
  · rw [if_pos hl, dif_pos hl]
    split
    next bad hf =>
      split
      next bad' hf' => rw [Option.some.inj (hf.symm.trans hf')]; rfl
      next hf' => rw [hf] at hf'; cases hf'
    next hf =>
      split
      next bad hf' => rw [hf] at hf'; cases hf'
      next => rfl
  · rw [if_neg hl, dif_neg hl]
    rfl

theorem bodyOfCode_eq (dex : Dex) {code : Code} (h : ∀ l ∈ code.instrs, l.IsShort) :
    bodyOfCode dex code = finished ((Registry.bodyOfCode dex code).value.map HostBody.of) := by
  have short : ∀ l ∈ Registry.bodyInstrs code, l.IsShort := fun l hl =>
    h l (List.mem_filter.mp hl).1
  have written : (Registry.bodyInstrs code).map (hostInstr dex) =
      ((Registry.bodyInstrs code).map (Registry.bodyInstr dex)).map .of := by
    rw [List.map_map]
    exact List.map_congr_left fun l hl => hostInstr_eq dex (short l hl)
  rw [bodyOfCode, written]
  refine (lift_bind (mapM_eq_ok fun l hl => successors_eq h _ (short l hl)) _).trans ?_
  rw [makeBody_eq]
  rfl

theorem body_eq (r : Registry) (uid : Nat) :
    body r uid = finished ((r.body uid).value.map HostBody.of) := by
  rw [body, Registry.body]
  cases r.entries[uid]? with
  | none => rfl
  | some entry =>
    simp only [MethodEntry.body, code_eq, mapError_finished]
    split
    · rfl
    · rcases hc : entry.dex.code entry.encoded with e | _ | code
      · rfl
      · rfl
      · exact bodyOfCode_eq entry.dex fun l hl => Dex.isShort_of_code hc hl

theorem successorInstrs_eq (b : Body) (i : Nat) :
    successorInstrs (.of b) i = .ok ((b.successorInstrs i).map .of) := by
  have inside : ∀ s ∈ b.successorsAt i, s < (b.instrs.map HostInstr.of).length := by
    intro s hs
    rw [List.length_map]
    exact b.lt_of_mem_successorsAt hs
  show (b.successorsAt i).mapM (index (b.instrs.map HostInstr.of)) = _
  rw [mapM_index inside, Body.successorInstrs, List.map_filterMap]
  simp only [List.getElem?_map]

end Machine

end PermissionAudit
