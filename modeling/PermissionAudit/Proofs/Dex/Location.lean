import PermissionAudit.Dex.File
import PermissionAudit.Proofs.Dex.ClassData

/-!
Where the parts of a file lie. A file behind an accepted header is read exactly
if its tables, and the lists and class data that their records lead to, lie
inside it; what is read is then found by position, and a table that does not fit
is named.
-/

namespace PermissionAudit

/-! ## Numbers by position -/

namespace Bytes

variable {b : Bytes}

theorem byteAt_take {n i : Nat} (h : i < n) : byteAt (b.take n) i = byteAt b i := by
  rw [byteAt, byteAt, List.getElem?_take_of_lt h]

theorem u16At_record {p size k : Nat} (h : k + 2 ≤ size) :
    u16At ((b.drop p).take size) k = u16At b (p + k) := by
  rw [← HoldsAt.u16At_add, u16At, u16At, byteAt_take (by omega), byteAt_take (by omega)]

theorem u32At_record {p size k : Nat} (h : k + 4 ≤ size) :
    u32At ((b.drop p).take size) k = u32At b (p + k) := by
  rw [u32At, u32At, u16At_record (by omega), u16At_record (by omega), Nat.add_assoc]

theorem chunks_eq_map (size count : Nat) (b : Bytes) :
    chunks size count b = (List.range count).map fun i => (b.drop (i * size)).take size := by
  induction count generalizing b with
  | zero => rfl
  | succ count ih =>
    rw [chunks, ih, List.range_succ_eq_map, List.map_cons, List.map_map, Nat.zero_mul,
      List.drop_zero]
    simp only [List.drop_drop, Function.comp_def, Nat.succ_mul, Nat.add_comm]

theorem toNat_unit (lo hi : UInt8) :
    (lo.toUInt16 + 256 * hi.toUInt16).toNat = lo.toNat + 256 * hi.toNat := by
  have hlo := lo.toNat_lt
  have hhi := hi.toNat_lt
  simp only [UInt16.toNat_add, UInt16.toNat_mul, UInt8.toNat_toUInt16]
  rw [show (256 : UInt16).toNat = 256 from rfl]
  omega

theorem map_toNat_units {count : Nat} (h : 2 * count ≤ b.length) :
    (units (b.take (2 * count))).map (·.toNat) =
      (List.range count).map fun k => u16At b (2 * k) := by
  induction count generalizing b with
  | zero => rfl
  | succ count ih =>
    rcases b with _ | ⟨lo, _ | ⟨hi, rest⟩⟩
    · simp at h
    · simp at h
      omega
    · have later := ih (b := rest) (by simp at h; omega)
      rw [Nat.mul_add, Nat.mul_one, List.take_succ_cons, List.take_succ_cons, units, List.map_cons,
        later, List.range_succ_eq_map, List.map_cons, List.map_map, toNat_unit]
      rfl

end Bytes

namespace Dex

open Bytes (u16At u32At)

/-! ## Where the tables lie -/

def Header.extent (h : Header) : Table → Extent
  | .strings => h.strings
  | .types => h.types
  | .protos => h.protos
  | .fields => h.fields
  | .methods => h.methods
  | .classes => h.classes

/-- The size of a record of a table, in bytes. -/
def Table.recordSize : Table → Nat
  | .strings => 4
  | .types => 4
  | .protos => 12
  | .fields => 8
  | .methods => 8
  | .classes => 32

/-- The place of a table in the order of reading. -/
def Table.rank : Table → Nat
  | .strings => 0
  | .types => 1
  | .protos => 2
  | .fields => 3
  | .methods => 4
  | .classes => 5

/-- A table with records lies inside the file. -/
def Table.Fits (t : Table) (h : Header) (b : Bytes) : Prop :=
  (h.extent t).size ≠ 0 → (h.extent t).offset + (h.extent t).size * t.recordSize ≤ b.length

/-- The position of a record of a table. -/
def Header.position (h : Header) (t : Table) (i : Nat) : Nat :=
  (h.extent t).offset + i * t.recordSize

/-- The positions of all records of a table. -/
def Header.positions (h : Header) (t : Table) : List Nat :=
  (List.range (h.extent t).size).map (h.position t)

/-- The records of a table of the header. -/
def Header.recordsOf (h : Header) (b : Bytes) (t : Table) : Except Error (List Bytes) :=
  tableRecords b t (h.extent t) t.recordSize

section Tables

variable {b : Bytes} {h : Header} {t : Table}

theorem recordsOf_of_fits (fits : t.Fits h b) :
    h.recordsOf b t = .ok ((h.positions t).map fun p => (b.drop p).take t.recordSize) := by
  rw [Header.recordsOf, tableRecords, Header.positions]
  by_cases empty : (h.extent t).size = 0
  · rw [if_pos empty, empty]
    rfl
  · rw [if_neg empty, if_pos (fits empty), Bytes.chunks_eq_map, List.map_map]
    simp only [List.drop_drop, Function.comp_def, Header.position]

theorem recordsOf_of_not_fits (outside : ¬ t.Fits h b) :
    h.recordsOf b t = .error (.invalidOffset (.table t)) := by
  rw [Table.Fits, Classical.not_imp] at outside
  rw [Header.recordsOf, tableRecords, if_neg outside.1, if_neg outside.2]

theorem recordsOf_eq_ok_iff {records : List Bytes} : h.recordsOf b t = .ok records ↔
    t.Fits h b ∧ (h.positions t).map (fun p => (b.drop p).take t.recordSize) = records := by
  by_cases fits : t.Fits h b
  · simp [recordsOf_of_fits fits, fits]
  · simp [recordsOf_of_not_fits fits, fits]

end Tables

/-! ## What records lead to -/

section Items

variable {b : Bytes} {offset : Nat}

/-- A list of types that is not left out lies inside the file: a count, and as many numbers. -/
def HoldsTypeList (b : Bytes) (offset : Nat) : Prop :=
  offset ≠ 0 → offset < b.length ∧ offset + 4 ≤ b.length ∧
    offset + 4 + 2 * u32At b offset ≤ b.length

/-- The types of a list, by position. -/
def typesAt (b : Bytes) (offset : Nat) : List Nat :=
  if offset = 0 then [] else
    (List.range (u32At b offset)).map fun k => u16At b (offset + 4 + 2 * k)

theorem locate_eq_ok_iff {item : Item} {rest : Bytes} :
    locate b offset item = .ok rest ↔ offset < b.length ∧ rest = b.drop offset := by
  rw [locate]
  cases hd : b.drop offset with
  | nil =>
    have outside : b.length ≤ offset := List.drop_eq_nil_iff.mp hd
    simp [Nat.not_lt.mpr outside]
  | cons first later =>
    have inside : offset < b.length := by
      rw [← Nat.not_le, ← List.drop_eq_nil_iff, hd]
      simp
    simp [inside, eq_comm]

/-- The numbers behind the count, by position. -/
theorem map_toNat_units_at (h : offset + 4 + 2 * u32At b offset ≤ b.length) :
    (Bytes.units (((b.drop offset).drop 4).take (2 * u32At b offset))).map (·.toNat) =
      (List.range (u32At b offset)).map fun k => u16At b (offset + 4 + 2 * k) := by
  rw [List.drop_drop, Bytes.map_toNat_units (by rw [List.length_drop]; omega)]
  simp only [Bytes.HoldsAt.u16At_add]

theorem typeList_eq_ok_iff {types : List Nat} :
    typeList b offset = .ok types ↔ HoldsTypeList b offset ∧ types = typesAt b offset := by
  by_cases absent : offset = 0
  · simp [typeList, HoldsTypeList, typesAt, absent, eq_comm]
  · have count : u32At (b.drop offset) 0 = u32At b offset := Bytes.HoldsAt.u32At_add offset 0
    rw [typeList, if_neg absent, typesAt, if_neg absent, HoldsTypeList, bind_eq_ok_iff]
    simp only [locate_eq_ok_iff]
    constructor
    · rintro ⟨_, ⟨inside, rfl⟩, h⟩
      rw [count, List.length_drop] at h
      by_cases short : b.length - offset < 4 ∨ b.length - offset < 4 + 2 * u32At b offset
      · rw [if_pos short] at h
        cases h
      · rw [if_neg short] at h
        have fits : offset + 4 + 2 * u32At b offset ≤ b.length := by omega
        refine ⟨fun _ => ⟨inside, by omega, fits⟩, ?_⟩
        rw [← map_toNat_units_at fits]
        exact (Except.ok.inj h).symm
    · rintro ⟨holds, rfl⟩
      obtain ⟨inside, hcount, fits⟩ := holds absent
      refine ⟨_, ⟨inside, rfl⟩, ?_⟩
      rw [count, List.length_drop, if_neg (by omega), map_toNat_units_at fits]
      rfl

/-- Class data that is not left out lies inside the file, and numbers for it stand there. -/
def HoldsClassData (b : Bytes) (offset : Nat) : Prop :=
  offset ≠ 0 → offset < b.length ∧
    ∃ (c : ClassData.Contents) (rest : Bytes), Uleb128.Starts (b.drop offset) c.numbers rest

/-- The class data at an offset, by its numbers. -/
def IsDataAt (b : Bytes) (offset : Nat) : Option ClassData → Prop
  | none => offset = 0
  | some data => offset ≠ 0 ∧ offset < b.length ∧ ∃ c : ClassData.Contents, c.data = data ∧
    ∃ rest, Uleb128.Starts (b.drop offset) c.numbers rest

theorem exists_isDataAt (h : HoldsClassData b offset) : ∃ data, IsDataAt b offset data := by
  by_cases absent : offset = 0
  · exact ⟨none, absent⟩
  · obtain ⟨inside, c, starts⟩ := h absent
    exact ⟨some c.data, absent, inside, c, rfl, starts⟩

theorem IsDataAt.holds {data : Option ClassData} (h : IsDataAt b offset data) :
    HoldsClassData b offset := by
  intro present
  cases data with
  | none => exact absurd h present
  | some data =>
    obtain ⟨-, inside, c, -, starts⟩ := h
    exact ⟨inside, c, starts⟩

theorem readClassData_eq_ok_iff {data : Option ClassData} :
    readClassData b offset = .ok data ↔ IsDataAt b offset data := by
  by_cases absent : offset = 0
  · rw [readClassData, if_pos absent]
    cases data with
    | none => simp [IsDataAt, absent]
    | some data => simp [IsDataAt, absent]
  · rw [readClassData, if_neg absent, bind_eq_ok_iff]
    simp only [locate_eq_ok_iff]
    constructor
    · rintro ⟨_, ⟨inside, rfl⟩, h⟩
      cases hr : ClassData.read (b.drop offset) with
      | error fault =>
        rw [hr] at h
        cases h
      | ok item =>
        rw [hr] at h
        obtain rfl := Except.ok.inj h
        exact ⟨absent, inside, ClassData.read_eq_ok_iff.mp hr⟩
    · intro h
      cases data with
      | none => exact absurd h absent
      | some item =>
        obtain ⟨-, inside, spelled⟩ := h
        refine ⟨_, ⟨inside, rfl⟩, ?_⟩
        rw [ClassData.read_eq_ok_iff.mpr spelled]
        rfl

end Items

/-! ## Records by position -/

section Records

variable {b : Bytes} {p : Nat}

def protoAt (b : Bytes) (p : Nat) : ProtoId := ⟨u32At b (p + 4), typesAt b (u32At b (p + 8))⟩

def fieldAt (b : Bytes) (p : Nat) : FieldId := ⟨u16At b p, u16At b (p + 2), u32At b (p + 4)⟩

def methodAt (b : Bytes) (p : Nat) : MethodId := ⟨u16At b p, u16At b (p + 2), u32At b (p + 4)⟩

/-- The record at a position is that of the class. -/
structure IsClassAt (b : Bytes) (p : Nat) (c : ClassDef) : Prop where
  type : c.type = u32At b p
  flags : c.flags = ClassFlags.truncate (u32At b (p + 4))
  superclass : c.superclass =
    if u32At b (p + 8) = noIndex then none else some (u32At b (p + 8))
  interfaces : c.interfaces = typesAt b (u32At b (p + 12))
  data : IsDataAt b (u32At b (p + 24)) c.data

theorem readProto_eq_ok_iff {proto : ProtoId} :
    readProto b ((b.drop p).take 12) = .ok proto ↔
      HoldsTypeList b (u32At b (p + 8)) ∧ protoAt b p = proto := by
  simp only [readProto, bind_eq_ok_iff, typeList_eq_ok_iff]
  rw [Bytes.u32At_record (by decide), Bytes.u32At_record (by decide)]
  constructor
  · rintro ⟨_, ⟨holds, rfl⟩, h⟩
    exact ⟨holds, Except.ok.inj h⟩
  · rintro ⟨holds, rfl⟩
    exact ⟨_, ⟨holds, rfl⟩, rfl⟩

theorem map_u32At_records {size : Nat} (h : 4 ≤ size) (ps : List Nat) :
    (ps.map fun p => (b.drop p).take size).map (u32At · 0) = ps.map (u32At b) := by
  simp [Bytes.u32At_record h]

theorem map_readField_records {size : Nat} (h : 8 ≤ size) (ps : List Nat) :
    (ps.map fun p => (b.drop p).take size).map readField = ps.map (fieldAt b) := by
  rw [List.map_map]
  refine List.map_congr_left fun p _ => ?_
  rw [Function.comp_apply, readField, Bytes.u16At_record (by omega), Bytes.u16At_record (by omega),
    Bytes.u32At_record (by omega)]
  rfl

theorem map_readMethod_records {size : Nat} (h : 8 ≤ size) (ps : List Nat) :
    (ps.map fun p => (b.drop p).take size).map readMethod = ps.map (methodAt b) := by
  rw [List.map_map]
  refine List.map_congr_left fun p _ => ?_
  rw [Function.comp_apply, readMethod, Bytes.u16At_record (by omega),
    Bytes.u16At_record (by omega), Bytes.u32At_record (by omega)]
  rfl

theorem readClass_eq_ok_iff {c : ClassDef} :
    readClass b ((b.drop p).take 32) = .ok c ↔
      HoldsTypeList b (u32At b (p + 12)) ∧ IsClassAt b p c := by
  have number (k : Nat) (hk : k ≤ 28) : u32At ((b.drop p).take 32) k = u32At b (p + k) :=
    Bytes.u32At_record (by omega)
  simp only [readClass, bind_eq_ok_iff, typeList_eq_ok_iff, readClassData_eq_ok_iff]
  rw [number 0 (by decide), number 4 (by decide), number 8 (by decide), number 12 (by decide),
    number 24 (by decide)]
  constructor
  · rintro ⟨data, hd, _, ⟨holds, rfl⟩, h⟩
    obtain rfl := Except.ok.inj h
    exact ⟨holds, rfl, rfl, rfl, rfl, hd⟩
  · rintro ⟨holds, type, flags, superclass, interfaces, data⟩
    refine ⟨c.data, data, _, ⟨holds, rfl⟩, ?_⟩
    cases c
    cases type
    cases flags
    cases superclass
    cases interfaces
    rfl

end Records

/-! ## The file -/

section File

variable {b : Bytes} {h : Header} {dex : Dex}

/-- The parameter lists that the prototype records lead to lie inside the file. -/
def HoldsParameters (h : Header) (b : Bytes) : Prop :=
  ∀ p ∈ h.positions .protos, HoldsTypeList b (u32At b (p + 8))

/-- The tables lie inside the file, and so does all that their records lead to. -/
structure WellLocated (h : Header) (b : Bytes) : Prop where
  tables : ∀ t : Table, t.Fits h b
  parameters : HoldsParameters h b
  interfaces : ∀ p ∈ h.positions .classes, HoldsTypeList b (u32At b (p + 12))
  data : ∀ p ∈ h.positions .classes, HoldsClassData b (u32At b (p + 24))

/-- Every table of the file is what stands at the positions of its records. -/
structure IsReadFrom (h : Header) (b : Bytes) (dex : Dex) : Prop where
  header : dex.header = h
  raw : dex.raw = b
  strings : dex.strings = (h.positions .strings).map (u32At b)
  types : dex.types = (h.positions .types).map (u32At b)
  protos : dex.protos = (h.positions .protos).map (protoAt b)
  fields : dex.fields = (h.positions .fields).map (fieldAt b)
  methods : dex.methods = (h.positions .methods).map (methodAt b)
  classes : List.Forall₂ (IsClassAt b) (h.positions .classes) dex.classes

theorem mapM_readProto_eq_ok_iff {ps : List Nat} {protos : List ProtoId} :
    (ps.map fun p => (b.drop p).take (Table.recordSize .protos)).mapM (readProto b) = .ok protos ↔
      (∀ p ∈ ps, HoldsTypeList b (u32At b (p + 8))) ∧ ps.map (protoAt b) = protos := by
  rw [Table.recordSize, mapM_eq_ok_iff, List.forall₂_map_left_iff, ← List.forall₂_eq_eq_eq,
    List.forall₂_map_left_iff]
  simp only [readProto_eq_ok_iff, List.forall₂_and_left]

theorem mapM_readClass_eq_ok_iff {ps : List Nat} {classes : List ClassDef} :
    (ps.map fun p => (b.drop p).take (Table.recordSize .classes)).mapM (readClass b) =
        .ok classes ↔
      (∀ p ∈ ps, HoldsTypeList b (u32At b (p + 12))) ∧
        List.Forall₂ (IsClassAt b) ps classes := by
  rw [Table.recordSize, mapM_eq_ok_iff, List.forall₂_map_left_iff]
  simp only [readClass_eq_ok_iff, List.forall₂_and_left]

/-- Behind an accepted header the tables are read one after another. -/
theorem read_of_header (header : Header.read b = .ok h) (supported : h.isSupported = true) :
    read b = do
      let strings ← h.recordsOf b .strings
      let types ← h.recordsOf b .types
      let protos ← (← h.recordsOf b .protos).mapM (readProto b)
      let fields ← h.recordsOf b .fields
      let methods ← h.recordsOf b .methods
      let classes ← (← h.recordsOf b .classes).mapM (readClass b)
      return ⟨h, b, strings.map (u32At · 0), types.map (u32At · 0), protos, fields.map readField,
        methods.map readMethod, classes⟩ := by
  rw [read, header]
  show (if (!h.isSupported) = true then _ else _) = _
  rw [supported]
  rfl

theorem read_eq_ok_iff (header : Header.read b = .ok h) (supported : h.isSupported = true) :
    read b = .ok dex ↔ WellLocated h b ∧ IsReadFrom h b dex := by
  simp only [read_of_header header supported, bind_eq_ok_iff, recordsOf_eq_ok_iff]
  constructor
  · rintro ⟨_, ⟨strings, rfl⟩, _, ⟨types, rfl⟩, _, ⟨protos, rfl⟩, _, hp, _, ⟨fields, rfl⟩,
      _, ⟨methods, rfl⟩, _, ⟨classes, rfl⟩, _, hc, hd⟩
    obtain ⟨parameters, rfl⟩ := mapM_readProto_eq_ok_iff.mp hp
    obtain ⟨interfaces, found⟩ := mapM_readClass_eq_ok_iff.mp hc
    obtain rfl := Except.ok.inj hd
    constructor
    · refine ⟨?_, parameters, interfaces, ?_⟩
      · intro t
        cases t <;> assumption
      · intro p hm
        obtain ⟨c, -, hc⟩ := exists_of_forall₂_left found hm
        exact hc.data.holds
    · exact ⟨rfl, rfl, map_u32At_records (by decide) _, map_u32At_records (by decide) _, rfl,
        map_readField_records (by decide) _, map_readMethod_records (by decide) _, found⟩
  · rintro ⟨located, found⟩
    refine ⟨_, ⟨located.tables _, rfl⟩, _, ⟨located.tables _, rfl⟩, _, ⟨located.tables _, rfl⟩,
      _, mapM_readProto_eq_ok_iff.mpr ⟨located.parameters, rfl⟩, _, ⟨located.tables _, rfl⟩,
      _, ⟨located.tables _, rfl⟩, _, ⟨located.tables _, rfl⟩,
      dex.classes, mapM_readClass_eq_ok_iff.mpr ⟨located.interfaces, found.classes⟩, ?_⟩
    rw [map_u32At_records (by decide), map_u32At_records (by decide),
      map_readField_records (by decide), map_readMethod_records (by decide), ← found.strings,
      ← found.types, ← found.protos, ← found.fields, ← found.methods, ← found.header, ← found.raw]
    rfl

/-- A well-located file has classes at the positions of its class records. -/
theorem WellLocated.exists_classes (located : WellLocated h b) :
    ∃ classes, List.Forall₂ (IsClassAt b) (h.positions .classes) classes := by
  refine exists_forall₂ fun p hm => ?_
  obtain ⟨data, hd⟩ := exists_isDataAt (located.data p hm)
  exact ⟨⟨_, _, _, _, data⟩, rfl, rfl, rfl, rfl, hd⟩

theorem exists_read_iff (header : Header.read b = .ok h) (supported : h.isSupported = true) :
    (∃ dex, read b = .ok dex) ↔ WellLocated h b := by
  simp only [read_eq_ok_iff header supported]
  constructor
  · rintro ⟨dex, located, -⟩
    exact located
  · intro located
    obtain ⟨classes, found⟩ := located.exists_classes
    exact ⟨⟨h, b, _, _, _, _, _, classes⟩, located, rfl, rfl, rfl, rfl, rfl, rfl, rfl, found⟩

/-- What is read before a table lies inside the file. -/
structure FitsBefore (h : Header) (b : Bytes) (t : Table) : Prop where
  tables : ∀ s : Table, s.rank < t.rank → s.Fits h b
  parameters : Table.protos.rank < t.rank → HoldsParameters h b

theorem read_of_not_fits (header : Header.read b = .ok h) (supported : h.isSupported = true)
    {t : Table} (before : FitsBefore h b t) (outside : ¬ t.Fits h b) :
    read b = .error (.invalidOffset (.table t)) := by
  have found (s : Table) (earlier : s.rank < t.rank) := recordsOf_of_fits (before.tables s earlier)
  have parsed (earlier : Table.protos.rank < t.rank) :=
    mapM_readProto_eq_ok_iff.mpr ⟨before.parameters earlier, rfl⟩
  have refused := recordsOf_of_not_fits outside
  rw [read_of_header header supported]
  cases t with
  | strings =>
    rw [refused]
    rfl
  | types =>
    rw [found .strings (by decide), refused]
    rfl
  | protos =>
    rw [found .strings (by decide), found .types (by decide), refused]
    rfl
  -- from here on the parameter lists of the prototypes are read before
  | fields =>
    rw [found .strings (by decide), found .types (by decide), found .protos (by decide), refused]
    show (List.mapM (readProto b) _ >>= _) = _
    rw [parsed (by decide)]
    rfl
  | methods =>
    rw [found .strings (by decide), found .types (by decide), found .protos (by decide),
      found .fields (by decide), refused]
    show (List.mapM (readProto b) _ >>= _) = _
    rw [parsed (by decide)]
    rfl
  | classes =>
    rw [found .strings (by decide), found .types (by decide), found .protos (by decide),
      found .fields (by decide), found .methods (by decide), refused]
    show (List.mapM (readProto b) _ >>= _) = _
    rw [parsed (by decide)]
    rfl

/-- **Location**: behind an accepted header a file is read exactly if its parts lie inside it. Each
table is then what stands at the positions of its records. A table that does not fit is named if all
that is read before it lies inside the file. -/
theorem parse_by_position (header : Header.read b = .ok h) (supported : h.isSupported = true) :
    ((∃ dex, (parse b).value = .ok dex) ↔ WellLocated h b) ∧
      (∀ dex, (parse b).value = .ok dex → IsReadFrom h b dex) ∧
      ∀ t : Table, FitsBefore h b t → ¬ t.Fits h b →
        (parse b).value = .error (.invalidOffset (.table t)) := by
  have value : (parse b).value = read b := rfl
  rw [value]
  refine ⟨exists_read_iff header supported, ?_, ?_⟩
  · intro dex hr
    exact ((read_eq_ok_iff header supported).mp hr).2
  · intro t before outside
    exact read_of_not_fits header supported before outside

end File

/-! ## A file with overlapping parts -/

/-- A file whose string table lies over its header. The one class record stands at the end, behind
the interfaces and the methods that it leads to. -/
def overlappingFile : Bytes :=
  Header.magic ++ [0x30, 0x33, 0x35, 0] ++ List.replicate 28 0 ++ Bytes.le32 Header.size ++
    Bytes.le32 Header.endianConstant ++ List.replicate 12 0 ++
    Bytes.le32 2 ++ Bytes.le32 0 ++ List.replicate 32 0 ++ Bytes.le32 1 ++ Bytes.le32 130 ++
    List.replicate 8 0 ++
    Bytes.le32 2 ++ Bytes.le16 5 ++ Bytes.le16 6 ++
    [0, 0, 2, 0, 3, 1, 0, 2, 1, 0] ++
    Bytes.le32 7 ++ Bytes.le32 1 ++ Bytes.le32 noIndex ++ Bytes.le32 112 ++ Bytes.le32 0 ++
    Bytes.le32 0 ++ Bytes.le32 120 ++ Bytes.le32 0

namespace overlappingFile

def header : Header where
  version := 35
  checksum := 0
  signature := List.replicate 20 0
  fileSize := 0
  linkSize := 0
  mapOffset := 0
  strings := ⟨2, 0⟩
  types := ⟨0, 0⟩
  protos := ⟨0, 0⟩
  fields := ⟨0, 0⟩
  methods := ⟨0, 0⟩
  classes := ⟨1, 130⟩

/-- The methods of the class, with differences of three and two. -/
def contents : ClassData.Contents := ⟨0, 0, [], [⟨3, 1, 0⟩, ⟨2, 1, 0⟩], [], rfl⟩

theorem length_eq : overlappingFile.length = 162 := by decide +kernel

theorem positions_classes : header.positions .classes = [130] := rfl

theorem holdsParameters (b : Bytes) : HoldsParameters header b := nofun

theorem starts_contents :
    Uleb128.Starts (overlappingFile.drop 120) contents.numbers (overlappingFile.drop 130) := by
  have front : overlappingFile.drop 120 =
      [0, 0, 2, 0, 3, 1, 0, 2, 1, 0] ++ overlappingFile.drop 130 := by decide +kernel
  have numbers : contents.numbers = [0, 0, 2, 0, 3, 1, 0, 2, 1, 0] := rfl
  rw [front, numbers]
  simp only [Uleb128.starts_cons_iff, Uleb128.starts_nil_iff]
  exact ⟨_, rfl, _, rfl, _, rfl, _, rfl, _, rfl, _, rfl, _, rfl, _, rfl, _, rfl, _, rfl, rfl⟩

theorem wellLocated : WellLocated header overlappingFile where
  tables t := by
    rw [Table.Fits, length_eq]
    cases t <;> decide
  parameters := holdsParameters _
  interfaces := by
    have list : u32At overlappingFile (130 + 12) = 112 ∧ u32At overlappingFile 112 = 2 := by
      decide +kernel
    rw [positions_classes, List.forall_mem_singleton, HoldsTypeList, list.1, list.2, length_eq]
    decide
  data := by
    have data : u32At overlappingFile (130 + 24) = 120 := by decide +kernel
    rw [positions_classes, List.forall_mem_singleton, HoldsClassData, data, length_eq]
    exact fun _ => ⟨by decide, contents, _, starts_contents⟩

end overlappingFile

/-- The class table ends with the file; it does not fit any more when one byte is missing. -/
theorem overlappingFile_parsed :
    (∃ dex, (parse overlappingFile).value = .ok dex ∧ dex.strings = [0x0A786564, 0x353330] ∧
      dex.classes.length = 1) ∧
    (parse overlappingFile.dropLast).value = .error (.invalidOffset (.table .classes)) := by
  have read : Header.read overlappingFile = .ok overlappingFile.header := by decide +kernel
  have read' : Header.read overlappingFile.dropLast = .ok overlappingFile.header := by
    decide +kernel
  obtain ⟨accepted, found, -⟩ := parse_by_position read rfl
  obtain ⟨-, -, refused⟩ := parse_by_position read' rfl
  constructor
  · obtain ⟨dex, hd⟩ := accepted.mpr overlappingFile.wellLocated
    refine ⟨dex, hd, (found dex hd).strings.trans (by decide +kernel), ?_⟩
    exact (found dex hd).classes.length_eq.symm
  · refine refused _ ⟨fun t => ?_, fun _ => overlappingFile.holdsParameters _⟩ ?_
    · rw [Table.Fits, List.length_dropLast, overlappingFile.length_eq]
      cases t <;> decide
    · rw [Table.Fits, List.length_dropLast, overlappingFile.length_eq]
      decide

end Dex

end PermissionAudit
