import Mathlib.Data.List.Forall2
import PermissionAudit.Dex.Assembler.Layout
import PermissionAudit.Proofs.Bytes.ReadBack

/-!
Where the parts of an assembled file are. Every block of data lies at the offset
that is recorded for it, and every table lies where the header says.
-/

namespace PermissionAudit.Assembler

open Bytes (HoldsAt le16 le32)

/-! ## Blocks of data -/

/-- A block lies at its offset, which is not zero; offset zero stands for no block. -/
def Placed (file : Bytes) : Option Bytes → Nat → Prop
  | none, offset => offset = 0
  | some block, offset => 0 < offset ∧ HoldsAt file offset block

theorem placed_place (align : Nat) {start : Nat} (hstart : 0 < start) (before after : Bytes)
    (hbefore : before.length = start) (blocks : List (Option Bytes)) :
    List.Forall₂ (Placed (before ++ (place align start blocks).2 ++ after)) blocks
      (place align start blocks).1 := by
  induction blocks generalizing before start with
  | nil => exact .nil
  | cons block? rest ih =>
    cases block? with
    | none => exact .cons rfl (ih hstart before hbefore)
    | some block =>
      -- What comes before the rest: all up to here, the padding and the block.
      let padding := (align - start % align) % align
      let later := place align (start + padding + block.length) rest
      have hpadded : (before ++ List.replicate padding 0).length = start + padding := by
        rw [List.length_append, hbefore, List.length_replicate]
      have hrest := @ih (start + padding + block.length) (by omega)
        (before ++ List.replicate padding 0 ++ block) (by rw [List.length_append, hpadded])
      have hblock := HoldsAt.of_append (before ++ List.replicate padding 0) block
        (later.2 ++ after)
      have hfile : before ++ (place align start (some block :: rest)).2 ++ after =
          before ++ List.replicate padding 0 ++ block ++ (later.2 ++ after) := by
        simp [place, padding, later]
      rw [hfile]
      rw [hpadded] at hblock
      refine .cons ⟨Nat.lt_of_lt_of_le hstart (Nat.le_add_right _ _), hblock⟩ ?_
      rw [← List.append_assoc]
      exact hrest

/-- Where the code of methods is recorded to be. -/
def codeOffset (a : Assembler) (offsets : List Nat) (index : Nat) : Nat :=
  ((((a.codes.map (·.1)).zip offsets).reverse).lookup index).getD 0

/-- Every block of data is where its offset says. -/
structure Located (a : Assembler) (file : Bytes) (data : Data) : Prop where
  strings : List.Forall₂ (Placed file) (a.strings.items.map fun s => some (stringBlock s)) data.strings
  parameters :
    List.Forall₂ (Placed file) (a.protos.items.map fun p => typeListBlock p.parameters)
      data.parameters
  interfaces :
    List.Forall₂ (Placed file) (a.classes.map fun c => typeListBlock c.interfaces) data.interfaces
  code : ∃ offsets,
    List.Forall₂ (Placed file) (a.codes.map fun c => some (codeBlock c.2)) offsets ∧
    List.Forall₂ (Placed file) (a.classes.map (classDataBlock (a.codeOffset offsets)))
      data.classData

theorem located_layoutData (a : Assembler) {start : Nat} (hstart : 0 < start) (before : Bytes)
    (hbefore : before.length = start) :
    Located a (before ++ (a.layoutData start).bytes) (a.layoutData start) := by
  let strings := place 1 start (a.strings.items.map fun s => some (stringBlock s))
  let start₁ := start + strings.2.length
  let parameters := place 4 start₁ (a.protos.items.map fun p => typeListBlock p.parameters)
  let start₂ := start₁ + parameters.2.length
  let interfaces := place 4 start₂ (a.classes.map fun c => typeListBlock c.interfaces)
  let start₃ := start₂ + interfaces.2.length
  let code := place 4 start₃ (a.codes.map fun c => some (codeBlock c.2))
  let start₄ := start₃ + code.2.length
  let classData := place 1 start₄ (a.classes.map (classDataBlock (a.codeOffset code.1)))
  have hlayout : a.layoutData start = ⟨strings.1, parameters.1, interfaces.1, classData.1,
      strings.2 ++ parameters.2 ++ interfaces.2 ++ code.2 ++ classData.2⟩ := rfl
  rw [hlayout]
  have h₁ : (before ++ strings.2).length = start₁ := by rw [List.length_append, hbefore]
  have h₂ : (before ++ strings.2 ++ parameters.2).length = start₂ := by rw [List.length_append, h₁]
  have h₃ : (before ++ strings.2 ++ parameters.2 ++ interfaces.2).length = start₃ := by
    rw [List.length_append, h₂]
  have h₄ : (before ++ strings.2 ++ parameters.2 ++ interfaces.2 ++ code.2).length = start₄ := by
    rw [List.length_append, h₃]
  have hstrings := placed_place 1 hstart before
    (parameters.2 ++ (interfaces.2 ++ (code.2 ++ classData.2))) hbefore
    (a.strings.items.map fun s => some (stringBlock s))
  have hparameters := placed_place 4 (Nat.add_pos_left hstart _) _
    (interfaces.2 ++ (code.2 ++ classData.2)) h₁
    (a.protos.items.map fun p => typeListBlock p.parameters)
  have hinterfaces := placed_place 4 (by omega) _ (code.2 ++ classData.2) h₂
    (a.classes.map fun c => typeListBlock c.interfaces)
  have hcode := placed_place 4 (by omega) _ classData.2 h₃
    (a.codes.map fun c => some (codeBlock c.2))
  have hclassData := placed_place 1 (by omega) _ [] h₄
    (a.classes.map (classDataBlock (a.codeOffset code.1)))
  simp only [List.append_assoc, List.append_nil]
    at hstrings hparameters hinterfaces hcode hclassData ⊢
  exact ⟨hstrings, hparameters, hinterfaces, code.1, hcode, hclassData⟩

/-! ## Tables -/

/-- Records of each table with the size of a record, in file order. -/
def recordTables (a : Assembler) (data : Data) : List (List Bytes × Nat) := [
  (data.strings.map le32, 4),
  (a.types.items.map le32, 4),
  ((a.protos.items.zip data.parameters).map fun p => protoRecord p.1 p.2, 12),
  (a.fields.map memberRecord, 8),
  (a.methods.items.map memberRecord, 8),
  ((a.classes.zip (data.interfaces.zip data.classData)).map fun c =>
    classRecord c.1 c.2.1 c.2.2, 32)]

theorem tables_eq (a : Assembler) (data : Data) :
    a.tables data = (a.recordTables data).map (·.1.flatten) := by
  simp [tables, recordTables, List.flatMap_def]

theorem length_record (a : Assembler) (data : Data) :
    ∀ t ∈ a.recordTables data, 0 < t.2 ∧ ∀ r ∈ t.1, r.length = t.2 := by
  simp only [recordTables, List.forall_mem_cons, List.forall_mem_map, List.not_mem_nil,
    false_implies, implies_true, and_true]
  exact ⟨⟨by decide, fun _ _ => rfl⟩, ⟨by decide, fun _ _ => rfl⟩, ⟨by decide, fun _ _ => rfl⟩,
    ⟨by decide, fun _ _ => rfl⟩, ⟨by decide, fun _ _ => rfl⟩, by decide, fun _ _ => rfl⟩

theorem tableSizes_eq {a : Assembler} {file : Bytes} {data : Data} (h : Located a file data) :
    a.tableSizes = (a.recordTables data).map fun t => (t.1.length, t.2) := by
  obtain ⟨offsets, -, hclassData⟩ := h.code
  have hstrings := h.strings.length_eq
  have hparameters := h.parameters.length_eq
  have hinterfaces := h.interfaces.length_eq
  have hclassData := hclassData.length_eq
  rw [List.length_map] at hstrings hparameters hinterfaces hclassData
  simp [tableSizes, recordTables, Pool.size] at *
  omega

theorem length_flatten {size : Nat} {records : List Bytes} (h : ∀ r ∈ records, r.length = size) :
    records.flatten.length = size * records.length := by
  induction records with
  | nil => rfl
  | cons r rest ih =>
    rw [List.flatten_cons, List.length_append, h r List.mem_cons_self,
      ih fun r hr => h r (List.mem_cons_of_mem _ hr), List.length_cons, Nat.mul_succ]
    exact Nat.add_comm _ _

/-- A table that lies where its entry in the header says is read back. -/
theorem tableRecords_eq {file : Bytes} (hfile : file.length < 4294967296) {position offset : Nat}
    {records : List Bytes} {size : Nat} (hpos : 0 < size) (hsize : ∀ r ∈ records, r.length = size)
    (hentry : HoldsAt file position (sectionEntry records.length offset))
    (hrecords : HoldsAt file offset records.flatten) (table : Dex.Table) :
    Dex.tableRecords file table (Dex.Header.extentAt file position) size = .ok records := by
  have hlength := length_flatten hsize
  have hcount := hentry.left.u32At_eq
  have hoffset := hentry.right.u32At_eq
  rw [Bytes.length_le32] at hoffset
  unfold Dex.tableRecords Dex.Header.extentAt
  rw [hcount, hoffset]
  cases records with
  | nil => rfl
  | cons r rest =>
    -- A table with a record lies inside the file, and so its count and offset are short.
    have hle := hrecords.length_le (by rw [hlength]; exact Nat.mul_pos hpos (Nat.succ_pos _))
    have hmul : (r :: rest).length ≤ size * (r :: rest).length := Nat.le_mul_of_pos_left _ hpos
    obtain ⟨after, hafter⟩ := hrecords
    have hshort : (r :: rest).length % 4294967296 = (r :: rest).length :=
      Nat.mod_eq_of_lt (by omega)
    have hshort' : offset % 4294967296 = offset := Nat.mod_eq_of_lt (by omega)
    have hne : (r :: rest).length ≠ 0 := Nat.succ_ne_zero _
    dsimp only
    rw [hshort, if_neg hne, if_neg hne, hshort', Nat.mul_comm, if_pos (by omega), ← hafter,
      Bytes.chunks_flatten hsize]

theorem length_sectionEntries (dataSize offset : Nat) (sizes : List (Nat × Nat)) :
    (sectionEntries dataSize offset sizes).length = 8 * (sizes.length + 1) := by
  induction sizes generalizing offset with
  | nil => rfl
  | cons t rest ih =>
    rw [sectionEntries, List.length_append, ih, List.length_cons]
    show 8 + _ = _
    omega

/-- Where the data starts. -/
def dataOffset (a : Assembler) : Nat :=
  a.tableSizes.foldl (fun offset t => offset + t.2 * t.1) Dex.Header.size

/-- The data of the file. -/
def data (a : Assembler) : Data := a.layoutData a.dataOffset

/-- The header from the file size up to the link and map fields. -/
def fixedFields (a : Assembler) : Bytes :=
  le32 (a.dataOffset + a.data.bytes.length) ++ le32 Dex.Header.size ++
    le32 Dex.Header.endianConstant ++ le32 0 ++ le32 0 ++ le32 0

/-- What the signature covers. -/
def signed (a : Assembler) : Bytes :=
  a.fixedFields ++ sectionEntries a.data.bytes.length Dex.Header.size a.tableSizes ++
    (a.tables a.data).flatten ++ a.data.bytes

/-- What the checksum covers. -/
def summed (a : Assembler) : Bytes := Sha1.digest a.signed ++ a.signed

/-- The magic and the checksum. -/
def front (a : Assembler) : Bytes :=
  Dex.Header.magic ++ a.version ++ [0] ++ le32 (Adler32.checksum a.summed)

theorem build_eq (a : Assembler) : a.build = a.front ++ a.summed := rfl

theorem foldl_sizes (tables : List (List Bytes × Nat)) (start : Nat)
    (hsize : ∀ t ∈ tables, 0 < t.2 ∧ ∀ r ∈ t.1, r.length = t.2) :
    (tables.map fun t => (t.1.length, t.2)).foldl (fun offset t => offset + t.2 * t.1) start =
      start + (tables.map (·.1.flatten)).flatten.length := by
  induction tables generalizing start with
  | nil => rfl
  | cons t rest ih =>
    simp only [List.map_cons, List.foldl_cons, List.flatten_cons, List.length_append]
    rw [ih _ fun t ht => hsize t (List.mem_cons_of_mem _ ht),
      length_flatten (hsize t List.mem_cons_self).2]
    omega

theorem tableSizes_layout (a : Assembler) {start : Nat} (hstart : 0 < start) :
    a.tableSizes = (a.recordTables (a.layoutData start)).map fun t => (t.1.length, t.2) :=
  tableSizes_eq (located_layoutData a hstart (List.replicate start 0) List.length_replicate)

theorem dataOffset_pos (a : Assembler) : 0 < a.dataOffset := by
  simp only [dataOffset, tableSizes, Dex.Header.size, List.foldl_cons, List.foldl_nil]
  omega

theorem dataOffset_eq (a : Assembler) :
    a.dataOffset = Dex.Header.size + (a.tables a.data).flatten.length := by
  unfold dataOffset
  rw [tableSizes_layout a a.dataOffset_pos, tables_eq]
  exact foldl_sizes _ _ (length_record a a.data)

theorem length_front {a : Assembler} (h : a.version.length = 3) : a.front.length = 12 := by
  simp [front, Dex.Header.magic, h]

/-- All before the tables. -/
def top (a : Assembler) : Bytes :=
  a.front ++ Sha1.digest a.signed ++ a.fixedFields ++
    sectionEntries a.data.bytes.length Dex.Header.size a.tableSizes

theorem length_top {a : Assembler} (h : a.version.length = 3) : a.top.length = Dex.Header.size := by
  simp only [top, List.length_append, length_front h, Sha1.length_digest, length_sectionEntries]
  rfl

theorem build_eq_top (a : Assembler) :
    a.build = a.top ++ (a.tables a.data).flatten ++ a.data.bytes := by
  simp only [build_eq, summed, top]
  rw [signed]
  simp only [List.append_assoc]

theorem length_build {a : Assembler} (h : a.version.length = 3) :
    a.build.length = a.dataOffset + a.data.bytes.length := by
  rw [build_eq_top, List.length_append, List.length_append, length_top h, dataOffset_eq]

/-- Every block of data is where its offset says. -/
theorem located_build {a : Assembler} (h : a.version.length = 3) : Located a a.build a.data := by
  rw [build_eq_top]
  apply located_layoutData a a.dataOffset_pos
  rw [List.length_append, length_top h, dataOffset_eq]

end PermissionAudit.Assembler
