import PermissionAudit.Proofs.Dex.Header
import PermissionAudit.Proofs.Dex.Location
import PermissionAudit.Proofs.Machine.CallGraph
import PermissionAudit.Proofs.Machine.FlowGraph

/-!
The reader as a whole: whatever the bytes are, reading them and asking anything
about the file gives a result or an error. Traps come from two limits only, the
counters of a registration and the room of a graph, and exactly when what is
built is beyond them. A file with one class of many methods reaches the first.
-/

namespace PermissionAudit.Machine

open Dex (Header Table noIndex)
open Dex.ClassData (Contents)
open Registry (Member)

/-- Code, names and texts of a file are found without a trap. -/
structure AnswersFile (dex : Dex) : Prop where
  code : ∀ method, Machine.code dex method = finished (dex.code method)
  string : ∀ i, Machine.string dex i = finished (dex.string i)
  type : ∀ i, Machine.type dex i = finished (dex.type i)
  protoText : ∀ proto, Machine.protoText dex proto = finished (dex.protoText proto)
  methodText : ∀ method, Machine.methodText dex method = finished (dex.methodText method)
  fieldText : ∀ field, Machine.fieldText dex field = finished (dex.fieldText field)
  referenceText : ∀ reference i,
    Machine.referenceText dex reference i = finished (dex.referenceText reference i)
  text : ∀ method code, dex.code method = .ok (some code) → ∀ l ∈ code.instrs,
    Machine.text dex l = finished (l.text dex)
  rawText : ∀ method code, dex.code method = .ok (some code) → ∀ l ∈ code.instrs,
    Machine.rawText (targetText l.addr) l.instr = .ok l.rawText

/-- Bodies are made without a trap; flow graphs and the call graph are if there is room for
them. -/
structure AnswersProgram (host : Registry) : Prop where
  body : ∀ uid, Machine.body host uid = finished ((host.body uid).value.map HostBody.of)
  successorInstrs : ∀ uid b, (host.body uid).value = .ok b → ∀ i,
    Machine.successorInstrs (.of b) i = .ok ((b.successorInstrs i).map .of)
  flowGraph : ∀ uid b, (host.body uid).value = .ok b → ∀ keying,
    Machine.flowGraph graphCapacity (.of b) keying =
      if Fits graphCapacity (FlowGraph.build b keying).value.labels.length
          (FlowGraph.build b keying).value.edges.length then
        .ok (FlowGraph.build b keying).value
      else
        .error (.capacity graphCapacity)
  callGraph : Machine.callGraph graphCapacity host.classes (fun m => Machine.body host m.uid) =
    if Fits graphCapacity
        (CallGraph.build host.classes fun m => host.body m.uid).value.nodes.length
        (CallGraph.build host.classes fun m => host.body m.uid).value.edges.length then
      .ok (CallGraph.build host.classes fun m => host.body m.uid).value
    else
      .error (.capacity graphCapacity)

theorem answersFile (dex : Dex) : AnswersFile dex where
  code := code_eq dex
  string := string_eq dex
  type := type_eq dex
  protoText := protoText_eq dex
  methodText := methodText_eq dex
  fieldText := fieldText_eq dex
  referenceText := referenceText_eq dex
  text _ _ h _ hl := text_eq dex (Dex.isShort_of_code h hl)
  rawText _ _ h _ hl := rawText_eq fun _ hd => targetText_eq (Dex.isShort_of_code h hl) hd

theorem answersProgram (host : Registry) : AnswersProgram host where
  body := body_eq host
  successorInstrs _ b _ := successorInstrs_eq b
  flowGraph _ b _ := flowGraph_eq graphCapacity b
  callGraph := callGraph_eq graphCapacity (fun m => body_eq host m.uid) host.classes

/-- **Traps**: reading any bytes comes to its end with a file or an error, and so does every
question about the file. Registering its classes ends in an overflow exactly if they are not
within the counters, which they are in any file with less than `3 * 2 ^ 31` bytes. Bodies of
registered methods always come to an end, and graphs exactly if there is room for them. -/
theorem reader_traps_at_limits (b : Bytes) :
    read b = finished (Dex.read b) ∧
      ∀ dex, Dex.read b = .ok dex →
        AnswersFile dex ∧
        ∀ exclusions,
          (WithinCounters (Registry.ofDexs [dex] exclusions).value →
            ofDexs [dex] exclusions = .ok (Registry.ofDexs [dex] exclusions).value) ∧
          (¬ WithinCounters (Registry.ofDexs [dex] exclusions).value →
            ∃ bits, ofDexs [dex] exclusions = .error (.overflow bits)) ∧
          (b.length < 3 * 2 ^ 31 → WithinCounters (Registry.ofDexs [dex] exclusions).value) ∧
          AnswersProgram (Registry.ofDexs [dex] exclusions).value := by
  refine ⟨read_eq b, fun dex h => ⟨answersFile dex, fun exclusions => ?_⟩⟩
  have registered := limited_ofDexs [dex] exclusions
  refine ⟨registered.eq_ok, fun full => ?_, fun hb => withinCounters_of_read hb h exclusions,
    answersProgram _⟩
  obtain ⟨_, stopped, bits, rfl⟩ := registered.eq_error full
  exact ⟨bits, stopped⟩

/-- A file of one class `A` with a method `f`, which goes to its second instruction and returns. -/
def oneMethodFile : Bytes := [
  0x0a786564, 0x00353330, 0, 0, 0, 0, 0, 0,
  -- sizes and offsets
  224, 112, 0x12345678, 0, 0, 0, 3, 112, 2, 124, 1, 132, 0, 0, 1, 144, 1, 152, 40, 184,
  -- strings, types, prototype, method and class
  184, 189, 192, 0, 1, 1, 1, 0, 0, 2, 0, 1, 0xffffffff, 0, 0xffffffff, 0, 216, 0,
  -- string data, code and class data
  0x3b414c03, 0x00560100, 0x00006601, 16, 5, 0, 2, 0x000e0128, 0x00010000, 0x01c40800].flatMap
    Bytes.le32

theorem oneMethodFile_answers :
    ∃ dex code b, Dex.read oneMethodFile = .ok dex ∧ read oneMethodFile = finished (.ok dex) ∧
      dex.code ⟨0, 8, some 196⟩ = .ok (some code) ∧
      code.instrs = [⟨0, 0x28, .branch 1⟩, ⟨1, 0x0e, .none⟩] ∧
      text dex ⟨0, 0x28, .branch 1⟩ = finished (.ok "goto :0001") ∧
      ofDexs [dex] [] = .ok (Registry.ofDexs [dex] []).value ∧
      ((Registry.ofDexs [dex] []).value.body 0).value = .ok b ∧
      flowGraph graphCapacity (.of b) .instruction =
        .ok ⟨.instruction, ["goto :0001", "return-void"], [(0, 1)]⟩ := by
  obtain ⟨reads, answers⟩ := reader_traps_at_limits oneMethodFile
  have computed : ((Dex.read oneMethodFile).toOption.map fun dex =>
      ((dex.code ⟨0, 8, some 196⟩).toOption.join.map (·.instrs),
        ((Registry.ofDexs [dex] []).value.body 0).value.toOption.map fun b =>
          (FlowGraph.build b .instruction).value)) =
      some (some [⟨0, 0x28, .branch 1⟩, ⟨1, 0x0e, .none⟩],
        some ⟨.instruction, ["goto :0001", "return-void"], [(0, 1)]⟩) := by
    decide +kernel
  rcases hr : Dex.read oneMethodFile with e | dex
  · rw [hr] at computed
    cases computed
  rw [hr] at computed reads
  obtain ⟨instrs, graph⟩ := Prod.mk.inj (Option.some.inj computed)
  obtain ⟨file, program⟩ := answers dex hr
  obtain ⟨registers, -, counters, program⟩ := program []
  rcases hc : dex.code ⟨0, 8, some 196⟩ with e | _ | code <;> rw [hc] at instrs
  · cases instrs
  · cases instrs
  have instrs : code.instrs = [⟨0, 0x28, .branch 1⟩, ⟨1, 0x0e, .none⟩] := Option.some.inj instrs
  rcases hb : ((Registry.ofDexs [dex] []).value.body 0).value with e | b <;> rw [hb] at graph
  · cases graph
  refine ⟨dex, code, b, rfl, reads, hc, instrs, ?_, ?_, hb, ?_⟩
  · exact (file.text _ _ hc _ (instrs ▸ List.mem_cons_self)).trans rfl
  · exact registers (counters (by decide +kernel))
  · have drawn : (FlowGraph.build b .instruction).value =
        ⟨.instruction, ["goto :0001", "return-void"], [(0, 1)]⟩ := Option.some.inj graph
    rw [program.flowGraph 0 b hb, drawn]
    exact if_pos ⟨by decide, by decide⟩

/-! ## Classes with many methods -/

/-- The front of a file with one class, `A`, and one method name. Class data is to follow. -/
def classFront : Bytes := [
  0x0a786564, 0x00353330, 0, 0, 0, 0, 0, 0,
  -- sizes and offsets
  165, 112, 0x12345678, 0, 0, 0, 1, 112, 1, 116, 0, 0, 0, 0, 1, 120, 1, 128, 0, 0,
  -- string, type, method and class, and the string data
  160, 0, 0, 0, 0, 0, noIndex, 0, 0, 0, 165, 0].flatMap Bytes.le32 ++ [3, 0x4C, 0x41, 0x3B, 0]

def classHeader : Header :=
  ⟨35, 0, List.replicate 20 0, 165, 0, 0, ⟨1, 112⟩, ⟨1, 116⟩, ⟨0, 0⟩, ⟨0, 0⟩, ⟨1, 120⟩, ⟨1, 128⟩⟩

/-- A file with one class, which has the given class data. -/
def classFile (c : Contents) : Bytes := classFront ++ c.numbers.flatMap Uleb128.write

/-- What is read from it. -/
def classDex (c : Contents) : Dex where
  header := classHeader
  raw := classFile c
  strings := [160]
  types := [0]
  protos := []
  fields := []
  methods := [⟨0, 0, 0⟩]
  classes := [⟨0, 0, none, [], some c.data⟩]

section ClassFile

variable (c : Contents)

theorem length_classFront : classFront.length = 165 := by rfl

theorem header_classFile : Header.read (classFile c) = .ok classHeader :=
  Header.read_append (by decide +kernel) _

/-- Numbers in front of the class data. -/
theorem u32At_classFile {i : Nat} (h : i + 3 < 165) :
    Bytes.u32At (classFile c) i = Bytes.u32At classFront i :=
  Bytes.u32At_append_left _ h

theorem u16At_classFile {i : Nat} (h : i + 1 < 165) :
    Bytes.u16At (classFile c) i = Bytes.u16At classFront i :=
  Bytes.u16At_append_left _ h

theorem numbers_classFront :
    [112, 116, 124, 128, 132, 136, 140, 152].map (Bytes.u32At classFront) =
      [160, 0, 0, 0, 0, noIndex, 0, 165] ∧
    [120, 122].map (Bytes.u16At classFront) = [0, 0] := by
  decide +kernel

theorem drop_classFile : (classFile c).drop 165 = c.numbers.flatMap Uleb128.write :=
  List.drop_left' length_classFront

variable {c : Contents}

theorem length_classFile_pos : 165 < (classFile c).length := by
  rw [classFile, List.length_append, length_classFront, Contents.numbers, List.cons_append,
    List.cons_append, List.cons_append, List.flatMap_cons, List.length_append]
  have := Uleb128.length_write_pos c.staticFields
  omega

/-- The class data is read back. -/
theorem isDataAt_classFile (h : ∀ n ∈ c.numbers, n < 4294967296) :
    Dex.IsDataAt (classFile c) 165 (some c.data) := by
  refine ⟨by decide, length_classFile_pos, c, rfl, [], ?_⟩
  rw [drop_classFile, ← List.append_nil (c.numbers.flatMap Uleb128.write)]
  exact Uleb128.starts_write h []

theorem read_classFile (h : ∀ n ∈ c.numbers, n < 4294967296) :
    Dex.read (classFile c) = .ok (classDex c) := by
  have long := @length_classFile_pos c
  have data := isDataAt_classFile h
  obtain ⟨words, halves⟩ := numbers_classFront
  simp only [List.map_cons, List.map_nil, List.cons.injEq, and_true] at words halves
  obtain ⟨string, type, name, definer, flags, superclass, interfaces, offset⟩ := words
  have number {i n : Nat} (hi : i + 3 < 165) (hn : Bytes.u32At classFront i = n) :
      Bytes.u32At (classFile c) i = n := (u32At_classFile c hi).trans hn
  have half {i n : Nat} (hi : i + 1 < 165) (hn : Bytes.u16At classFront i = n) :
      Bytes.u16At (classFile c) i = n := (u16At_classFile c hi).trans hn
  have interfaces := number (by decide) interfaces
  have offset := number (by decide) offset
  refine (Dex.read_eq_ok_iff (header_classFile c) rfl).mpr ⟨⟨?_, nofun, ?_, ?_⟩,
    rfl, rfl, ?_, ?_, rfl, rfl, ?_, .cons ⟨?_, ?_, ?_, ?_, ?_⟩ .nil⟩
  · intro t
    cases t <;> simp [Table.Fits, Header.extent, classHeader, Table.recordSize] <;> omega
  · exact List.forall_mem_singleton.mpr fun present => absurd interfaces present
  · exact List.forall_mem_singleton.mpr (offset ▸ data.holds)
  · exact congrArg (· :: []) (number (by decide) string).symm
  · exact congrArg (· :: []) (number (by decide) type).symm
  · show [(⟨0, 0, 0⟩ : Dex.MethodId)] = [Dex.methodAt (classFile c) 120]
    rw [Dex.methodAt, half (by decide) halves.1, half (by decide) halves.2,
      number (by decide) name]
  · exact (number (by decide) definer).symm
  · show 0 = Dex.ClassFlags.truncate (Bytes.u32At (classFile c) 132)
    rw [number (by decide) flags]
    rfl
  · show none = if Bytes.u32At (classFile c) 136 = noIndex then none else _
    rw [number (by decide) superclass, if_pos rfl]
  · show [] = Dex.typesAt (classFile c) (Bytes.u32At (classFile c) 140)
    rw [interfaces]
    rfl
  · show Dex.IsDataAt (classFile c) (Bytes.u32At (classFile c) 152) (some c.data)
    rw [offset]
    exact data

theorem stringData_classFile : Dex.stringData (classFile c) 160 = .ok [0x4C, 0x41, 0x3B] := by
  have front : classFront.drop 160 = [3, 0x4C, 0x41, 0x3B, 0] := by rfl
  have data : (classFile c).drop 160 =
      3 :: 0x4C :: 0x41 :: 0x3B :: 0 :: c.numbers.flatMap Uleb128.write := by
    rw [classFile, List.drop_append_of_le_length (by rw [length_classFront]; decide), front]
    rfl
  rw [Dex.stringData, Dex.locate, data]
  rfl

theorem string_classDex : (classDex c).string 0 = .ok "LA;" := by
  simp only [Dex.string, bind_eq_ok_iff]
  exact ⟨160, rfl, _, stringData_classFile, by decide +kernel⟩

theorem type_classDex : (classDex c).type 0 = .ok (.object "A") := by
  simp only [Dex.type, bind_eq_ok_iff]
  exact ⟨0, rfl, _, string_classDex, by decide +kernel⟩

theorem memberName_classDex (flags : Nat) (offset : Option Nat) :
    Registry.memberName (classDex c) ⟨0, flags, offset⟩ = .ok "LA;" := by
  simp only [Registry.memberName, bind_eq_ok_iff]
  exact ⟨⟨0, 0, 0⟩, rfl, string_classDex⟩

/-- The class is registered with its methods. -/
theorem ofDexs_classDex (c : Contents) :
    (Registry.ofDexs [classDex c] []).value =
      Registry.empty.add (classDex c) "A" none []
        (Registry.members "A" (classDex c) ⟨0, 0, none, [], some c.data⟩) := by
  have defs : Registry.definitions [classDex c] =
      [(classDex c, ⟨0, 0, none, [], some c.data⟩)] := rfl
  rw [Registry.ofDexs, defs, List.foldlM_cons, Logged.value_bind, List.foldlM_nil,
    Logged.value_pure, value_register, type_classDex]
  rfl

end ClassFile

/-- Class data with `n` direct methods, all with the one name and with a place for code. -/
def crowded (n : Nat) : Contents := ⟨0, 0, [], List.replicate n ⟨0, 0, 1⟩, [], List.length_nil⟩

section Crowded

variable {n : Nat}

theorem numbers_crowded_lt (h : n < 4294967296) : ∀ m ∈ (crowded n).numbers, m < 4294967296 := by
  intro m hm
  simp only [Contents.numbers, crowded, List.length_replicate, List.length_nil, List.append_nil,
    List.flatMap_nil, List.cons_append, List.nil_append, List.mem_cons, List.mem_flatMap,
    List.mem_replicate, Dex.ClassData.MethodEntry.numbers] at hm
  rcases hm with rfl | rfl | rfl | rfl | ⟨e, ⟨-, rfl⟩, hm⟩
  · decide
  · decide
  · exact h
  · decide
  · simp only [List.not_mem_nil, or_false] at hm
    omega

theorem methodsAfter_replicate (n : Nat) :
    Dex.ClassData.methodsAfter 0 (List.replicate n ⟨0, 0, 1⟩) =
      List.replicate n ⟨0, 0, some 1⟩ := by
  induction n with
  | zero => rfl
  | succ n ih =>
    rw [List.replicate_succ, Dex.ClassData.methodsAfter_cons, Nat.add_zero, ih]
    rfl

/-- The members are alike, with one verdict on their code. -/
theorem members_crowded (n : Nat) : ∃ stub,
    Registry.members "A" (classDex (crowded n)) ⟨0, 0, none, [], some (crowded n).data⟩ =
      List.replicate n ⟨"LA;", ⟨0, 0, some 1⟩, some stub⟩ := by
  have methods : (crowded n).data.methods = List.replicate n ⟨0, 0, some 1⟩ := by
    show Dex.ClassData.methodsAfter 0 (List.replicate n ⟨0, 0, 1⟩) ++ [] = _
    rw [methodsAfter_replicate, List.append_nil]
  obtain ⟨stub, member⟩ : ∃ stub, (Registry.inspect "A" (classDex (crowded n))
      ⟨0, 0, some 1⟩).value = some ⟨"LA;", ⟨0, 0, some 1⟩, some stub⟩ := by
    rw [Registry.inspect, memberName_classDex]
    exact ⟨_, rfl⟩
  refine ⟨stub, ?_⟩
  show List.filterMap (fun m => (Registry.inspect "A" (classDex (crowded n)) m).value)
    (crowded n).data.methods = _
  rw [methods]
  exact List.filterMap_replicate_of_some (f := fun m =>
    (Registry.inspect "A" (classDex (crowded n)) m).value) member

/-- **A crowded class** can be counted exactly if it has less than `2 ^ 31` methods. -/
theorem withinCounters_crowded_iff :
    WithinCounters (Registry.ofDexs [classDex (crowded n)] []).value ↔ n < 2 ^ 31 := by
  have none : WithinCounters Registry.empty := ⟨nofun, Nat.two_pow_pos 64, Nat.two_pow_pos 64⟩
  obtain ⟨stub, members⟩ := members_crowded n
  have coded : ((List.replicate n (⟨"LA;", ⟨0, 0, some 1⟩, some stub⟩ : Member)).filterMap
      (·.stub)).length = n := by
    simp
  rw [ofDexs_classDex, withinCounters_add none, members]
  constructor
  · rintro ⟨countable, -⟩
    exact coded ▸ countable.coded_lt
  · intro few
    refine ⟨⟨coded.symm ▸ few, ?_⟩, by decide⟩
    rw [List.length_replicate, Registry.empty, Nat.zero_add]
    omega

/-- A class with `2 ^ 31` methods that have code cannot be registered. -/
theorem crowdedFile_overflows :
    ∃ dex bits, Dex.read (classFile (crowded (2 ^ 31))) = .ok dex ∧
      ofDexs [dex] [] = .error (.overflow bits) := by
  have read := read_classFile (numbers_crowded_lt (show 2 ^ 31 < 4294967296 by decide))
  have full := mt withinCounters_crowded_iff.mp (Nat.lt_irrefl (2 ^ 31))
  obtain ⟨_, stopped, bits, rfl⟩ := (limited_ofDexs _ []).eq_error full
  exact ⟨_, bits, read, stopped⟩

end Crowded

end PermissionAudit.Machine
