import PermissionAudit.Proofs.Detection.Sites
import PermissionAudit.Proofs.Machine.Registry
import PermissionAudit.Proofs.Registry.Origin

/-!
Which classes are phantom. A stub is short code that loads the text of a stub and
no string that cannot be read. A class is phantom if some method of its definition
has code and all such methods are stubs, so that a single method that is no stub
has the class scanned.
-/

namespace PermissionAudit

/-! ## Stub code -/

/-- The instruction is a string constant, in the short or the long form. -/
def Instruction.LoadsString (i : Instruction) (index : Nat) : Prop :=
  (i.opcode = 0x1a ∨ i.opcode = 0x1b) ∧ ∃ a, i.operands = .regRef a index

theorem Instruction.stringIndex?_eq_some_iff {i : Instruction} {index : Nat} :
    i.stringIndex? = some index ↔ i.LoadsString index := by
  obtain ⟨opcode, operands⟩ := i
  cases operands <;> simp [stringIndex?, LoadsString]

namespace Registry

/-- The code loads the string at an index. -/
def Loads (code : Code) (index : Nat) : Prop := ∃ l ∈ code.instrs, l.instr.LoadsString index

/-- The code is short, can be read with all its strings, and one of them is that of a stub. -/
structure IsStubCode (dex : Dex) (code : Code) : Prop where
  short : code.instrs.length < 10
  readable : ∀ index, Loads code index → ∃ s, dex.string index = .ok s
  marked : ∃ index, Loads code index ∧ dex.string index = .ok "Stub!"

/-- The method has a name that can be resolved, and a place for its code. -/
structure IsCoded (dex : Dex) (m : Dex.EncodedMethod) : Prop where
  named : ∃ id, dex.methods[m.index]? = some id ∧ ∃ name, dex.string id.name = .ok name
  located : ∃ offset, m.codeOffset = some offset

/-- The method has code that can be decoded, and it is that of a stub. -/
def HasStub (dex : Dex) (m : Dex.EncodedMethod) : Prop :=
  ∃ code, dex.code m = .ok (some code) ∧ IsStubCode dex code

/-- Why a method with code is no stub. -/
inductive IsOwnCode (dex : Dex) (m : Dex.EncodedMethod) : Prop where
  | undecodable (e : Dex.Error) (h : dex.code m = .error e)
  | long (code : Code) (h : dex.code m = .ok (some code)) (long : 10 ≤ code.instrs.length)
  | unreadable (code : Code) (h : dex.code m = .ok (some code)) (index : Nat) (e : Dex.Error)
      (loaded : Loads code index) (missing : dex.string index = .error e)
  | unmarked (code : Code) (h : dex.code m = .ok (some code))
      (other : ∀ index, Loads code index → dex.string index ≠ .ok "Stub!")

theorem mem_stringIndices_iff {code : Code} {index : Nat} :
    index ∈ code.instrs.filterMap (·.instr.stringIndex?) ↔ Loads code index := by
  simp only [List.mem_filterMap, Instruction.stringIndex?_eq_some_iff, Loads]

theorem isStub_eq_ok_true_iff {dex : Dex} {code : Code} :
    isStub dex code = .ok true ↔ IsStubCode dex code := by
  by_cases short : code.instrs.length < stubLimit
  · have opened : isStub dex code =
        (code.instrs.filterMap (·.instr.stringIndex?)).mapM dex.string >>=
          fun strings => pure (strings.contains stubText) := by
      rw [isStub, if_pos short]
    rw [opened, bind_eq_ok_iff]
    constructor
    · rintro ⟨strings, hread, hmark⟩
      have read := mapM_eq_ok_iff.mp hread
      have found : stubText ∈ strings := List.contains_iff_mem.mp (Except.ok.inj hmark)
      obtain ⟨index, hi, hs⟩ := exists_of_forall₂_right read found
      refine ⟨short, fun index hl => ?_, index, mem_stringIndices_iff.mp hi, hs⟩
      obtain ⟨s, -, hs⟩ := exists_of_forall₂_left read (mem_stringIndices_iff.mpr hl)
      exact ⟨s, hs⟩
    · intro h
      obtain ⟨strings, hread⟩ := exists_mapM_eq_ok (f := dex.string) fun index hi =>
        h.readable index (mem_stringIndices_iff.mp hi)
      obtain ⟨index, hl, hs⟩ := h.marked
      obtain ⟨s, hmem, hs'⟩ := exists_of_forall₂_left (mapM_eq_ok_iff.mp hread)
        (mem_stringIndices_iff.mpr hl)
      have same : s = stubText := Except.ok.inj (hs'.symm.trans hs)
      have found : strings.contains stubText = true := List.contains_iff_mem.mpr (same ▸ hmem)
      exact ⟨strings, hread, congrArg Except.ok found⟩
  · rw [isStub, if_neg short]
    exact ⟨fun h => absurd (Except.ok.inj h) (by simp), fun h => absurd h.short short⟩

/-- Code that cannot be checked is no stub. -/
theorem value_checkStub_iff (className name : String) {dex : Dex} {m : Dex.EncodedMethod} :
    (checkStub className name dex m).value = true ↔ HasStub dex m := by
  rw [checkStub, HasStub]
  cases hc : dex.code m with
  | error e => simp
  | ok code? =>
    cases code? with
    | none => simp
    | some code =>
      simp only [Except.ok.injEq, Option.some.injEq, exists_eq_left', ← isStub_eq_ok_true_iff]
      cases isStub dex code with
      | error e => simp
      | ok stub => simp

/-- A method with code is no stub for one of the four reasons. -/
theorem IsCoded.isOwnCode_iff {dex : Dex} {m : Dex.EncodedMethod} (h : IsCoded dex m) :
    IsOwnCode dex m ↔ ¬ HasStub dex m := by
  obtain ⟨offset, ho⟩ := h.located
  have present : ∀ code?, dex.code m = .ok code? → ∃ code, code? = some code := by
    intro code? hc
    rw [Dex.code, ho] at hc
    obtain ⟨code, -, rfl⟩ := map_eq_ok_iff.mp hc
    exact ⟨code, rfl⟩
  have only {code code' : Code} (hc : dex.code m = .ok (some code))
      (hc' : dex.code m = .ok (some code')) : code = code' :=
    Option.some.inj (Except.ok.inj (hc.symm.trans hc'))
  constructor
  · rintro reason ⟨code, hc, stub⟩
    cases reason with
    | undecodable e he => exact absurd (he.symm.trans hc) (by simp)
    | long code' hc' long =>
      have short := only hc hc' ▸ stub.short
      omega
    | unreadable code' hc' index e loaded missing =>
      obtain ⟨s, hs⟩ := stub.readable index (only hc hc' ▸ loaded)
      exact absurd (missing.symm.trans hs) (by simp)
    | unmarked code' hc' other =>
      obtain ⟨index, loaded, hs⟩ := stub.marked
      exact other index (only hc hc' ▸ loaded) hs
  · intro other
    cases hc : dex.code m with
    | error e => exact .undecodable e hc
    | ok code? =>
      obtain ⟨code, rfl⟩ := present code? hc
      by_cases short : code.instrs.length < 10
      · by_cases readable : ∀ index, Loads code index → ∃ s, dex.string index = .ok s
        · refine .unmarked code hc fun index loaded hs => other ⟨code, hc, short, readable, ?_⟩
          exact ⟨index, loaded, hs⟩
        · simp only [not_forall] at readable
          obtain ⟨index, loaded, missing⟩ := readable
          cases hs : dex.string index with
          | error e => exact .unreadable code hc index e loaded hs
          | ok s => exact absurd ⟨s, hs⟩ missing
      · exact .long code hc (Nat.le_of_not_lt short)

/-! ## Phantom classes -/

theorem exists_memberName_iff {dex : Dex} {m : Dex.EncodedMethod} :
    (∃ name, memberName dex m = .ok name) ↔
      ∃ id, dex.methods[m.index]? = some id ∧ ∃ name, dex.string id.name = .ok name := by
  simp only [memberName, bind_eq_ok_iff]
  rw [exists_comm]
  refine exists_congr fun id => ?_
  rw [exists_and_left]
  refine and_congr_left fun _ => ?_
  rw [Dex.entry]
  cases dex.methods[m.index]? <;> simp

/-- A method contributes the verdict on its code if it is coded, and no verdict otherwise. -/
theorem inspect_stub_eq_some_iff {className : String} {dex : Dex} {m : Dex.EncodedMethod}
    {stub : Bool} :
    (inspect className dex m).value.bind (·.stub) = some stub ↔
      IsCoded dex m ∧ (stub = true ↔ HasStub dex m) := by
  have coded : IsCoded dex m ↔ (∃ name, memberName dex m = .ok name) ∧ m.hasCode = true := by
    rw [exists_memberName_iff, Dex.EncodedMethod.hasCode, Option.isSome_iff_exists]
    exact ⟨fun h => ⟨h.named, h.located⟩, fun h => ⟨h.1, h.2⟩⟩
  rw [coded, inspect]
  cases hn : memberName dex m with
  | error e => simp
  | ok name =>
    by_cases hc : m.hasCode
    · rw [← value_checkStub_iff className name, Bool.coe_iff_coe]
      simp [hc, eq_comm]
    · simp [hc]

/-- **Phantom classes**: some method has code, and every method with code is a stub. -/
theorem isPhantom_members_iff (name : String) (dex : Dex) (c : Dex.ClassDef) :
    isPhantom (members name dex c) = true ↔
      (∃ m ∈ c.methods, IsCoded dex m) ∧ ∀ m ∈ c.methods, IsCoded dex m → HasStub dex m := by
  have verdict {stub : Bool} : stub ∈ (members name dex c).filterMap (·.stub) ↔
      ∃ m ∈ c.methods, IsCoded dex m ∧ (stub = true ↔ HasStub dex m) := by
    rw [members, List.filterMap_filterMap, List.mem_filterMap]
    simp only [inspect_stub_eq_some_iff]
  simp only [isPhantom, Bool.and_eq_true, Bool.not_eq_true', List.isEmpty_eq_false_iff_exists_mem,
    List.all_eq_true, verdict, id]
  constructor
  · rintro ⟨⟨stub, m, hm, coded, -⟩, all⟩
    refine ⟨⟨m, hm, coded⟩, fun m hm coded => ?_⟩
    -- a coded method that is no stub would leave a verdict against the class
    by_contra other
    have kept := all false ⟨m, hm, coded, by simp [other]⟩
    cases kept
  · rintro ⟨⟨m, hm, coded⟩, all⟩
    refine ⟨⟨true, m, hm, coded, by simp [all m hm coded]⟩, ?_⟩
    rintro stub ⟨m, hm, coded, iff⟩
    exact iff.mpr (all m hm coded)

/-- **Phantom detection**: a registered class, made from the first definition of its name, is
phantom exactly if a method of that definition has code and all those that have are stubs. One
coded method that cannot be decoded, is long, loads a string that cannot be read or does not
load the text of a stub has the class scanned, with all methods that are selected. The counters
of the machine come to the same classes exactly if these are within them. -/
theorem ofDexs_phantom_exact (dexs : List Dex) (exclusions : List String) :
    (Machine.ofDexs dexs exclusions = .ok (ofDexs dexs exclusions).value ↔
        Machine.WithinCounters (ofDexs dexs exclusions).value) ∧
      ∀ c ∈ (ofDexs dexs exclusions).value.classes, ∃ p d,
        IsOrigin exclusions (definitions dexs) p c.name ∧ (definitions dexs)[p]? = some d ∧
        (c.phantom = true ↔ (∃ m ∈ d.2.methods, IsCoded d.1 m) ∧
          ∀ m ∈ d.2.methods, IsCoded d.1 m → HasStub d.1 m) ∧
        ∀ m ∈ d.2.methods, IsCoded d.1 m → IsOwnCode d.1 m →
          c.phantom = false ∧ ∀ selection : Selection, selection.selectsClass c.name →
            Detection.selectedMethods selection c =
              c.methods.filter fun m => selection.selectsMethod m.name := by
  refine ⟨(Machine.limited_ofDexs dexs exclusions).eq_ok_iff, fun c hc => ?_⟩
  obtain ⟨origins, registered⟩ := exists_registered dexs exclusions
  obtain ⟨p, -, origin, d, hd, made⟩ := exists_of_forall₂_right registered.made hc
  have phantom := made.phantom_eq ▸ isPhantom_members_iff c.name d.1 d.2
  refine ⟨p, d, origin, hd, phantom, fun m hm coded own => ?_⟩
  have kept : c.phantom = false := by
    rw [Bool.eq_false_iff]
    intro h
    exact coded.isOwnCode_iff.mp own ((phantom.mp h).2 m hm coded)
  refine ⟨kept, fun selection selected => ?_⟩
  simp [Detection.selectedMethods, kept, selected]

/-- A library of two classes: all code of `A` is a stub, and `B` has one method that loads a
string that is not there. -/
def stubbedLibrary : Dex where
  header := ⟨35, 0, [], 0, 0, 0, ⟨0, 0⟩, ⟨0, 0⟩, ⟨0, 0⟩, ⟨0, 0⟩, ⟨0, 0⟩, ⟨0, 0⟩⟩
  raw :=
    [3, 0x4C, 0x41, 0x3B, 0, 3, 0x4C, 0x42, 0x3B, 0, 1, 0x66, 0,
      5, 0x53, 0x74, 0x75, 0x62, 0x21, 0,
      0, 0, 0, 0, 0, 0, 0, 0, 0, 0, 0, 0, 3, 0, 0, 0, 0x1A, 0, 3, 0, 0x27, 0,
      0, 0, 0, 0, 0, 0, 0, 0, 0, 0, 0, 0, 3, 0, 0, 0, 0x1A, 0, 9, 0, 0x27, 0]
  strings := [0, 5, 10, 13]
  types := [0, 1]
  protos := []
  fields := []
  methods := [⟨0, 0, 2⟩, ⟨1, 0, 2⟩]
  classes :=
    [⟨0, 0, none, [], some ⟨[⟨0, 0, some 20⟩], [⟨0, 0, none⟩]⟩⟩,
      ⟨1, 0, none, [], some ⟨[⟨1, 0, some 20⟩], [⟨1, 0, some 42⟩]⟩⟩]

/-- Each of the two classes has one definition. -/
theorem stubbedLibrary_definition {p : Nat} {d : Dex × Dex.ClassDef} {name : String}
    (origin : IsOrigin [] (definitions [stubbedLibrary]) p name)
    (hd : (definitions [stubbedLibrary])[p]? = some d) :
    d.1 = stubbedLibrary ∧
      (name = "A" ∧ d.2.methods = [⟨0, 0, some 20⟩, ⟨0, 0, none⟩] ∨
        name = "B" ∧ d.2.methods = [⟨1, 0, some 20⟩, ⟨1, 0, some 42⟩]) := by
  obtain ⟨d', hd', defines⟩ := origin.defines
  obtain rfl := Option.some.inj (hd'.symm.trans hd)
  have listed : d' = (stubbedLibrary, ⟨0, 0, none, [], some ⟨[⟨0, 0, some 20⟩], [⟨0, 0, none⟩]⟩⟩) ∨
      d' = (stubbedLibrary, ⟨1, 0, none, [], some ⟨[⟨1, 0, some 20⟩], [⟨1, 0, some 42⟩]⟩⟩) := by
    simpa [definitions, stubbedLibrary] using List.mem_of_getElem? hd
  rcases listed with rfl | rfl
  · exact ⟨rfl, .inl ⟨defines.1.unique ⟨.object "A", by decide +kernel, by decide +kernel⟩, rfl⟩⟩
  · exact ⟨rfl, .inr ⟨defines.1.unique ⟨.object "B", by decide +kernel, by decide +kernel⟩, rfl⟩⟩

/-- The class of stubs is phantom, and the other one is scanned. -/
theorem stubbedLibrary_phantom :
    ∃ a b, (ofDexs [stubbedLibrary] []).value.classes = [a, b] ∧
      Machine.ofDexs [stubbedLibrary] [] = .ok (ofDexs [stubbedLibrary] []).value ∧
      a.phantom = true ∧ HasStub stubbedLibrary ⟨0, 0, some 20⟩ ∧
      IsOwnCode stubbedLibrary ⟨1, 0, some 42⟩ ∧ b.phantom = false ∧
      Detection.selectedMethods .all b = [⟨2, "B", "f", true⟩, ⟨3, "B", "f", true⟩] := by
  obtain ⟨counted, exact_phantom⟩ := ofDexs_phantom_exact [stubbedLibrary] []
  have computed : ((ofDexs [stubbedLibrary] []).value.classes,
      (ofDexs [stubbedLibrary] []).value.methodCount,
      (ofDexs [stubbedLibrary] []).value.classCount) =
      ([⟨"A", none, [], true, [⟨0, "A", "f", true⟩, ⟨1, "A", "f", false⟩]⟩,
        ⟨"B", none, [], false, [⟨2, "B", "f", true⟩, ⟨3, "B", "f", true⟩]⟩], 4, 2) := by
    decide +kernel
  obtain ⟨classes, counts⟩ := Prod.mk.inj computed
  obtain ⟨methodCount, classCount⟩ := Prod.mk.inj counts
  have named : stubbedLibrary.string 2 = .ok "f" := by decide +kernel
  have own : IsOwnCode stubbedLibrary ⟨1, 0, some 42⟩ :=
    .unreadable ⟨0, 0, 0, [⟨0, ⟨0x1A, .regRef 0 9⟩⟩, ⟨2, ⟨0x27, .reg 0⟩⟩]⟩ (by decide +kernel) 9
      (.notFound .string 9) ⟨_, List.mem_cons_self, .inl rfl, 0, rfl⟩ rfl
  refine ⟨_, _, classes, counted.mpr ⟨?_, by omega, by omega⟩, rfl, ?_, own, ?_⟩
  · rw [classes]
    decide
  · obtain ⟨p, d, origin, hd, phantom, -⟩ := exact_phantom _ (classes ▸ List.mem_cons_self)
    obtain ⟨hdex, ⟨-, methods⟩ | ⟨other, -⟩⟩ := stubbedLibrary_definition origin hd
    · rw [hdex, methods] at phantom
      exact (phantom.mp rfl).2 _ List.mem_cons_self ⟨⟨⟨0, 0, 2⟩, rfl, "f", named⟩, 20, rfl⟩
    · exact absurd other (by decide)
  · obtain ⟨p, d, origin, hd, -, scanned⟩ :=
      exact_phantom _ (classes ▸ List.mem_cons_of_mem _ List.mem_cons_self)
    obtain ⟨hdex, ⟨other, -⟩ | ⟨-, methods⟩⟩ := stubbedLibrary_definition origin hd
    · exact absurd other (by decide)
    · rw [hdex, methods] at scanned
      obtain ⟨kept, selected⟩ := scanned ⟨1, 0, some 42⟩ (by simp)
        ⟨⟨⟨1, 0, 2⟩, rfl, "f", named⟩, 42, rfl⟩ own
      exact ⟨kept, selected .all rfl⟩

end Registry

end PermissionAudit
