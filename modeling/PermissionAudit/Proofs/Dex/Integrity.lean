import PermissionAudit.Dex.Lookup
import PermissionAudit.Proofs.Dex.Header
import PermissionAudit.Proofs.Dex.Location

/-!
The seal of a file: its checksum, its signature and its size, which the header holds
from byte 8 up to byte 36. The seal is compared and never enforced. A file with another
seal is read as the same tables, as long as nothing is found by an offset into the
seal, and only the warnings about it are others.
-/

namespace PermissionAudit.Dex

open Bytes (u16At u32At)

/-! ## Files that differ in the seal -/

/-- The second file is the first with any bytes for the seal. -/
structure Resealed (b c : Bytes) : Prop where
  length_eq : c.length = b.length
  before : c.take 8 = b.take 8
  behind : c.drop 36 = b.drop 36

/-- The header with the seal of other bytes. -/
def Header.reseal (h : Header) (c : Bytes) : Header :=
  { h with
    checksum := u32At c 8
    signature := (c.drop 12).take 20
    fileSize := u32At c 32 }

/-- The file with other bytes behind the same tables. -/
def reseal (dex : Dex) (c : Bytes) : Dex := { dex with header := dex.header.reseal c, raw := c }

namespace Resealed

variable {b c : Bytes} (same : Resealed b c)

include same

theorem drop_eq {i : Nat} (h : 36 ≤ i) : c.drop i = b.drop i := by
  obtain ⟨k, rfl⟩ := Nat.exists_eq_add_of_le h
  rw [← List.drop_drop, ← List.drop_drop, same.behind]

theorem u32At_eq {i : Nat} (h : 36 ≤ i) : u32At c i = u32At b i := by
  rw [← Nat.add_zero i, ← Bytes.HoldsAt.u32At_add, ← Bytes.HoldsAt.u32At_add, same.drop_eq h]

theorem locate_eq {offset : Nat} (h : 36 ≤ offset) (item : Item) :
    locate c offset item = locate b offset item := by
  rw [locate, locate, same.drop_eq h]

theorem readMagic_eq : Header.readMagic c = Header.readMagic b := by
  have tag : c.take 4 = b.take 4 := by
    have := congrArg (List.take 4) same.before
    simpa [List.take_take] using this
  have zero : (c : Bytes)[7]? = b[7]? := by
    rw [← List.getElem?_take_of_lt (show 7 < 8 by decide), same.before,
      List.getElem?_take_of_lt (by decide)]
  have digits : (c.drop 4).take 3 = (b.drop 4).take 3 := by
    have := congrArg (fun front => (front.drop 4).take 3) same.before
    simpa [List.drop_take, List.take_take] using this
  simp only [Header.readMagic, tag, zero, digits, same.length_eq]

theorem ofBytes_eq (version : Nat) :
    Header.ofBytes version c = (Header.ofBytes version b).reseal c := by
  have extent {i : Nat} (h : 36 ≤ i) : Header.extentAt c i = Header.extentAt b i := by
    rw [Header.extentAt, Header.extentAt, same.u32At_eq h, same.u32At_eq (Nat.le_add_right_of_le h)]
  simp (disch := decide) only [Header.ofBytes, Header.reseal, extent, same.u32At_eq]

/-- The headers are accepted or refused together, and differ in the seal only. -/
theorem readHeader_eq : Header.read c = (Header.read b).map (·.reseal c) := by
  cases hm : Header.readMagic b with
  | error e =>
    rw [Header.read, Header.read, same.readMagic_eq, hm]
    rfl
  | ok version =>
    rw [Header.read_of_magic hm, Header.read_of_magic (same.readMagic_eq.trans hm),
      same.length_eq, same.u32At_eq (by decide), same.u32At_eq (by decide), same.ofBytes_eq]
    simp only [apply_ite (Except.map fun h : Header => h.reseal c)]
    rfl

end Resealed

/-! ## What lies behind the seal -/

/-- The records of a table inside the file lead to a list of types at the offset. -/
def LeadsToList (h : Header) (b : Bytes) (offset : Nat) : Prop :=
  offset ≠ 0 ∧
    ((Table.protos.Fits h b ∧ ∃ p ∈ h.positions .protos, u32At b (p + 8) = offset) ∨
      (Table.classes.Fits h b ∧ ∃ p ∈ h.positions .classes, u32At b (p + 12) = offset))

/-- The records of a table inside the file lead to class data at the offset. -/
def LeadsToData (h : Header) (b : Bytes) (offset : Nat) : Prop :=
  offset ≠ 0 ∧ Table.classes.Fits h b ∧ ∃ p ∈ h.positions .classes, u32At b (p + 24) = offset

/-- Class data without fields and methods. -/
def IsEmptyData (b : Bytes) (offset : Nat) : Prop :=
  ∃ rest, Uleb128.Starts (b.drop offset) [0, 0, 0, 0] rest

/-- What is not empty lies behind the seal: the tables, the lists of types and the class data. An
item in front of that is empty under either seal. -/
structure BehindSeal (h : Header) (b c : Bytes) : Prop where
  tables : ∀ t : Table, (h.extent t).size ≠ 0 → 36 ≤ (h.extent t).offset
  lists : ∀ offset, LeadsToList h b offset → offset < 36 → u32At b offset = 0 ∧ u32At c offset = 0
  data : ∀ offset, LeadsToData h b offset → offset < 36 →
    IsEmptyData b offset ∧ IsEmptyData c offset

section Items

variable {b c : Bytes} {h : Header}

theorem typeList_of_zero {offset : Nat} (present : offset ≠ 0) (inside : offset + 4 ≤ b.length)
    (zero : u32At b offset = 0) : typeList b offset = .ok [] := by
  refine typeList_eq_ok_iff.mpr ⟨fun _ => ⟨by omega, inside, by omega⟩, ?_⟩
  rw [typesAt, if_neg present, zero]
  rfl

theorem readClassData_of_empty {offset : Nat} (present : offset ≠ 0) (inside : offset < b.length)
    (empty : IsEmptyData b offset) : readClassData b offset = .ok (some ⟨[], []⟩) := by
  obtain ⟨rest, starts⟩ := empty
  refine readClassData_eq_ok_iff.mpr ⟨present, inside, ⟨0, 0, [], [], [], rfl⟩, rfl, rest, starts⟩

namespace Resealed

variable (same : Resealed b c) (long : 112 ≤ b.length)

include same

theorem recordsOf_eq (clear : BehindSeal h b c) (t : Table) :
    (h.reseal c).recordsOf c t = h.recordsOf b t := by
  have extent : (h.reseal c).extent t = h.extent t := by cases t <;> rfl
  rw [Header.recordsOf, Header.recordsOf, extent, tableRecords, tableRecords, same.length_eq]
  by_cases empty : (h.extent t).size = 0
  · rw [if_pos empty, if_pos empty]
  · rw [same.drop_eq (clear.tables t empty)]

include long

theorem typeList_eq {offset : Nat}
    (clear : offset ≠ 0 → offset < 36 → u32At b offset = 0 ∧ u32At c offset = 0) :
    typeList c offset = typeList b offset := by
  by_cases absent : offset = 0
  · rw [typeList, typeList, if_pos absent, if_pos absent]
  by_cases low : offset < 36
  · obtain ⟨hb, hc⟩ := clear absent low
    have inside := same.length_eq
    rw [typeList_of_zero absent (by omega) hb, typeList_of_zero absent (by omega) hc]
  · rw [typeList, typeList, same.locate_eq (Nat.le_of_not_lt low)]

theorem readClassData_eq {offset : Nat}
    (clear : offset ≠ 0 → offset < 36 → IsEmptyData b offset ∧ IsEmptyData c offset) :
    readClassData c offset = readClassData b offset := by
  by_cases absent : offset = 0
  · rw [readClassData, readClassData, if_pos absent, if_pos absent]
  by_cases low : offset < 36
  · obtain ⟨hb, hc⟩ := clear absent low
    have inside := same.length_eq
    rw [readClassData_of_empty absent (by omega) hb, readClassData_of_empty absent (by omega) hc]
  · rw [readClassData, readClassData, same.locate_eq (Nat.le_of_not_lt low)]

theorem mapM_readProto_eq (clear : BehindSeal h b c) {records : List Bytes}
    (hr : h.recordsOf b .protos = .ok records) :
    records.mapM (readProto c) = records.mapM (readProto b) := by
  obtain ⟨fits, rfl⟩ := recordsOf_eq_ok_iff.mp hr
  refine mapM_congr fun record hm => ?_
  obtain ⟨p, hp, rfl⟩ := List.mem_map.mp hm
  rw [readProto, readProto, Table.recordSize, Bytes.u32At_record (by decide),
    same.typeList_eq long fun present => clear.lists _ ⟨present, .inl ⟨fits, p, hp, rfl⟩⟩]

theorem mapM_readClass_eq (clear : BehindSeal h b c) {records : List Bytes}
    (hr : h.recordsOf b .classes = .ok records) :
    records.mapM (readClass c) = records.mapM (readClass b) := by
  obtain ⟨fits, rfl⟩ := recordsOf_eq_ok_iff.mp hr
  refine mapM_congr fun record hm => ?_
  obtain ⟨p, hp, rfl⟩ := List.mem_map.mp hm
  have list := same.typeList_eq long fun present =>
    clear.lists (u32At b (p + 12)) ⟨present, .inr ⟨fits, p, hp, rfl⟩⟩
  have data := same.readClassData_eq long fun present =>
    clear.data (u32At b (p + 24)) ⟨present, fits, p, hp, rfl⟩
  simp only [readClass, Table.recordSize, Bytes.u32At_record (show 12 + 4 ≤ 32 by decide),
    Bytes.u32At_record (show 24 + 4 ≤ 32 by decide), list, data]

end Resealed

end Items

/-! ## Reading under either seal -/

section Reading

variable {b c : Bytes}

theorem Header.long_of_read {h : Header} (hr : Header.read b = .ok h) : 112 ≤ b.length := by
  obtain ⟨version, -, long, -⟩ := Header.read_eq_ok_iff.mp hr
  exact long

theorem read_of_unsupported {h : Header} (header : Header.read b = .ok h)
    (unsupported : h.isSupported = false) :
    read b = .error (.unsupportedVersion h.versionText) := by
  rw [read, header]
  show (if (!h.isSupported) = true then _ else _) = _
  rw [unsupported]
  rfl

/-- **The tables** are read under one seal as under the other. -/
theorem Resealed.read_eq (same : Resealed b c)
    (clear : ∀ h, Header.read b = .ok h → BehindSeal h b c) :
    read c = (read b).map (·.reseal c) := by
  cases header : Header.read b with
  | error e =>
    rw [read, read, same.readHeader_eq, header]
    rfl
  | ok h =>
    have header' : Header.read c = .ok (h.reseal c) := by rw [same.readHeader_eq, header]; rfl
    cases supported : h.isSupported with
    | false =>
      rw [read_of_unsupported header supported, read_of_unsupported header' supported]
      rfl
    | true =>
      have clear := clear h header
      have long := Header.long_of_read header
      rw [read_of_header header supported, read_of_header header' supported]
      simp only [same.recordsOf_eq clear]
      refine bind_eq_map_bind fun strings _ => ?_
      refine bind_eq_map_bind fun types _ => ?_
      refine bind_eq_map_bind fun protoRecords hp => ?_
      rw [same.mapM_readProto_eq long clear hp]
      refine bind_eq_map_bind fun protos _ => ?_
      refine bind_eq_map_bind fun fields _ => ?_
      refine bind_eq_map_bind fun methods _ => ?_
      refine bind_eq_map_bind fun classRecords hc => ?_
      rw [same.mapM_readClass_eq long clear hc]
      exact bind_eq_map_bind fun classes _ => rfl

theorem exists_header_of_read {dex : Dex} (hr : read b = .ok dex) :
    ∃ h, Header.read b = .ok h ∧ h.isSupported = true := by
  cases header : Header.read b with
  | error e =>
    rw [read, header] at hr
    cases hr
  | ok h =>
    cases supported : h.isSupported with
    | false =>
      rw [read_of_unsupported header supported] at hr
      cases hr
    | true => exact ⟨h, rfl, supported⟩

theorem raw_of_read {dex : Dex} (hr : read b = .ok dex) : dex.raw = b := by
  obtain ⟨h, header, supported⟩ := exists_header_of_read hr
  exact ((read_eq_ok_iff header supported).mp hr).2.raw

theorem Resealed.string_eq (same : Resealed b c) {dex : Dex} (raw : dex.raw = b) {index : Nat}
    (clear : ∀ offset, dex.strings[index]? = some offset → 36 ≤ offset) :
    (dex.reseal c).string index = dex.string index := by
  have strings : (dex.reseal c).strings = dex.strings := rfl
  rw [string, string, entry, entry, strings]
  cases found : dex.strings[index]? with
  | none => rfl
  | some offset =>
    have data : stringData c offset = stringData b offset := by
      rw [stringData, stringData, same.locate_eq (clear offset found)]
    show (stringData c offset >>= _) = (stringData dex.raw offset >>= _)
    rw [data, raw]

theorem Resealed.code_eq (same : Resealed b c) {dex : Dex} (raw : dex.raw = b)
    {method : EncodedMethod} (clear : ∀ offset, method.codeOffset = some offset → 36 ≤ offset) :
    (dex.reseal c).code method = dex.code method := by
  rw [code, code]
  cases found : method.codeOffset with
  | none => rfl
  | some offset =>
    have item : codeAt c offset = codeAt b offset := by
      rw [codeAt, codeAt, same.locate_eq (clear offset found)]
    show (codeAt c offset).map some = (codeAt dex.raw offset).map some
    rw [item, raw]

end Reading

/-! ## Records -/

/-- The records that are no warnings. -/
def besidesWarnings (records : List LogRecord) : List LogRecord :=
  records.filter fun r => r.level ≠ .warn

theorem level_of_mem_integrityRecords {h : Header} {b : Bytes} {r : LogRecord}
    (hr : r ∈ h.integrityRecords b) : r.level = .warn := by
  simp only [Header.integrityRecords, List.mem_append] at hr
  rcases hr with (hr | hr) | hr
  all_goals
    split at hr
    · cases hr
    · simp only [List.mem_cons, List.not_mem_nil, or_false] at hr
      grind

/-- The seal is only warned about. -/
theorem besidesWarnings_records (h : Header) (b : Bytes) :
    besidesWarnings (h.records b) =
      ⟨.debug, "Dex version:  " ++ h.versionText⟩ ::
        if h.isSupported then [⟨.debug, "Map offset:   " ++ toString h.mapOffset⟩] else [] := by
  have warned : ∀ r ∈ h.integrityRecords b, r.level = .warn :=
    fun r hr => level_of_mem_integrityRecords hr
  rw [besidesWarnings, Header.records, List.filter_append, List.filter_append]
  by_cases linked : h.linkSize = 0 <;> cases h.isSupported <;> simp [linked] <;> exact warned

theorem besidesWarnings_parse {h : Header} {b : Bytes} (header : Header.read b = .ok h) :
    besidesWarnings (parse b).records =
      ⟨.trace, "parsing dex..."⟩ ::
        (besidesWarnings (h.records b) ++ ((read b).toOption.map summary).toList) := by
  cases hr : read b <;>
    simp [parse, header, hr, besidesWarnings, summary, Except.toOption]

/-- Under either seal the same records come, warnings apart. -/
theorem Resealed.records_eq {b c : Bytes} (same : Resealed b c)
    (clear : ∀ h, Header.read b = .ok h → BehindSeal h b c) :
    besidesWarnings (parse c).records = besidesWarnings (parse b).records := by
  cases header : Header.read b with
  | error e => simp only [parse, same.readHeader_eq, header, Except.map]
  | ok h =>
    have header' : Header.read c = .ok (h.reseal c) := by rw [same.readHeader_eq, header]; rfl
    have summaries : (read c).toOption.map summary = (read b).toOption.map summary := by
      rw [same.read_eq clear]
      cases read b <;> rfl
    rw [besidesWarnings_parse header, besidesWarnings_parse header', summaries,
      besidesWarnings_records, besidesWarnings_records]
    rfl

/-- **The seal is advisory**: a file with another seal is read as the same tables, or refused for
the same reason, if what is not empty lies behind the seal. Strings and code behind the seal are the
same, and so are all records but warnings. -/
theorem parse_ignores_seal {b c : Bytes} (same : Resealed b c)
    (clear : ∀ h, Header.read b = .ok h → BehindSeal h b c) :
    (parse c).value = (parse b).value.map (·.reseal c) ∧
      (∀ dex, (parse b).value = .ok dex →
        (∀ index, (∀ offset, dex.strings[index]? = some offset → 36 ≤ offset) →
          (dex.reseal c).string index = dex.string index) ∧
        ∀ method : EncodedMethod, (∀ offset, method.codeOffset = some offset → 36 ≤ offset) →
          (dex.reseal c).code method = dex.code method) ∧
      besidesWarnings (parse c).records = besidesWarnings (parse b).records := by
  refine ⟨same.read_eq clear, fun dex hr => ?_, same.records_eq clear⟩
  have raw : dex.raw = b := raw_of_read hr
  exact ⟨fun index => same.string_eq raw, fun method => same.code_eq raw⟩

/-! ## A file under two seals -/

/-- A file with any words for its seal. Its one class `A` has an interface and a method `f`, whose
list of parameters lies in the second word of the seal. -/
def sealedFile (words : List Nat) : Bytes :=
  ([0x0a786564, 0x00353330] ++ words ++ [
    112, 0x12345678, 0, 0, 0, 3, 112, 2, 124, 1, 132, 0, 0, 1, 144, 1, 152, 0, 0,
    -- strings, types, prototype, method and class
    184, 189, 192, 0, 1, 1, 1, 12, 0, 2, 0, 1, 0xffffffff, 196, 0xffffffff, 0, 224, 0,
    -- string data, interfaces, code and class data
    0x3b414c03, 0x00560100, 0x00006601, 1, 0, 16, 5, 0, 2, 0x000e0128, 0x00010000,
    0x01cc0800]).flatMap Bytes.le32

/-- A seal of zeros, and one that has no zeros but those in its second word. -/
def blankSeal : List Nat := [0, 0, 0, 0, 0, 0, 0]

def otherSeal : List Nat := [0xffffffff, 0, 1, 2, 3, 4, 5]

namespace sealedFile

theorem resealed : Resealed (sealedFile blankSeal) (sealedFile otherSeal) :=
  ⟨by decide +kernel, by decide +kernel, by decide +kernel⟩

theorem header_and_positions : Header.read (sealedFile blankSeal) =
      .ok (Header.ofBytes 35 (sealedFile blankSeal)) ∧
    (Header.ofBytes 35 (sealedFile blankSeal)).positions .protos = [132] ∧
    (Header.ofBytes 35 (sealedFile blankSeal)).positions .classes = [152] := by
  decide +kernel

theorem read_header : Header.read (sealedFile blankSeal) =
    .ok (Header.ofBytes 35 (sealedFile blankSeal)) :=
  header_and_positions.1

theorem positions_protos :
    (Header.ofBytes 35 (sealedFile blankSeal)).positions .protos = [132] :=
  header_and_positions.2.1

theorem positions_classes :
    (Header.ofBytes 35 (sealedFile blankSeal)).positions .classes = [152] :=
  header_and_positions.2.2

theorem behindSeal : BehindSeal (Header.ofBytes 35 (sealedFile blankSeal)) (sealedFile blankSeal)
    (sealedFile otherSeal) where
  tables t := by cases t <;> decide +kernel
  lists := by
    rintro offset ⟨-, ⟨-, p, hp, rfl⟩ | ⟨-, p, hp, rfl⟩⟩ low
    · rw [positions_protos, List.mem_singleton] at hp
      subst hp
      decide +kernel
    · rw [positions_classes, List.mem_singleton] at hp
      subst hp
      exact absurd low (by decide +kernel)
  data := by
    rintro offset ⟨-, -, p, hp, rfl⟩ low
    rw [positions_classes, List.mem_singleton] at hp
    subst hp
    exact absurd low (by decide +kernel)

end sealedFile

/-- The file is read under both seals, with the same name and the same code of its method. -/
theorem sealedFile_resealed :
    ∃ dex, (parse (sealedFile blankSeal)).value = .ok dex ∧
      (parse (sealedFile otherSeal)).value = .ok (dex.reseal (sealedFile otherSeal)) ∧
      dex.protos = [⟨1, []⟩] ∧ dex.classes.map (·.methods) = [[⟨0, 8, some 204⟩]] ∧
      (dex.reseal (sealedFile otherSeal)).string 2 = .ok "f" ∧
      (dex.reseal (sealedFile otherSeal)).code ⟨0, 8, some 204⟩ = dex.code ⟨0, 8, some 204⟩ := by
  have computed : (parse (sealedFile blankSeal)).value.toOption.map (fun dex =>
      (dex.strings[2]?, dex.protos, dex.classes.map (·.methods), dex.string 2)) =
      some (some 192, [⟨1, []⟩], [[⟨0, 8, some 204⟩]], .ok "f") := by
    decide +kernel
  obtain ⟨value, lookups, -⟩ := parse_ignores_seal sealedFile.resealed
    fun h header => Except.ok.inj (sealedFile.read_header.symm.trans header) ▸ sealedFile.behindSeal
  cases hr : (parse (sealedFile blankSeal)).value with
  | error e =>
    rw [hr] at computed
    cases computed
  | ok dex =>
    rw [hr] at computed value
    simp only [Except.toOption, Option.map_some, Option.some.injEq, Prod.mk.injEq] at computed
    obtain ⟨offset, protos, methods, name⟩ := computed
    obtain ⟨strings, codes⟩ := lookups dex hr
    refine ⟨dex, rfl, value, protos, methods, ?_, codes _ ?_⟩
    · rw [strings 2 (by simp [offset]), name]
    · simp

end PermissionAudit.Dex
