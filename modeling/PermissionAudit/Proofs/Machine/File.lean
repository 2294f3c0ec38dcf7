import PermissionAudit.Proofs.Dex.Sweep
import PermissionAudit.Proofs.Machine.Basic

/-!
Reading a dex file without a trap. The bytes are cut at positions that come
from the file itself: the checks made before each cut, and the width of the
numbers in a file, keep every position inside and every sum inside its word.
-/

namespace PermissionAudit

namespace Bytes

/-- Records are taken out of the bytes they cover, whatever stands behind. -/
theorem chunks_take (size count : Nat) (b : Bytes) :
    chunks size count (b.take (count * size)) = chunks size count b := by
  induction count generalizing b with
  | zero => rfl
  | succ count ih =>
    rw [chunks, chunks, List.take_take, List.drop_take, Nat.succ_mul, Nat.add_sub_cancel, ih,
      Nat.min_eq_left (Nat.le_add_left _ _)]

end Bytes

namespace Uleb128

theorem value_lt (groups : List UInt8) : value groups < 2 ^ 32 := by
  cases groups with
  | nil => decide
  | cons b rest => exact Nat.mod_lt _ (by decide)

theorem lt_of_read {b rest : Bytes} {n : Nat} (h : read b = .ok (n, rest)) : n < 2 ^ 32 := by
  rw [read] at h
  split at h
  · cases h
  · split at h
    · cases h
    · obtain ⟨rfl, -⟩ := Prod.mk.inj (Except.ok.inj h)
      exact value_lt _

end Uleb128

namespace Machine

open Dex (Error EncodedMethod ClassData Table Extent ClassDef Header)

/-! ## Numbers -/

/-- A number with one more group at its low end. -/
def pushGroup (n : Nat) (group : UInt8) : Run Nat := do
  let shifted ← shiftLeft 32 n 7
  add 32 shifted (group.toNat % 128)

/-- Reads one number: the groups are put together from the last one, the most significant, on. -/
def readUleb128 (b : Bytes) : Fallible ReadFault (Nat × Bytes) := do
  let leading := (b.take Uleb128.maxGroups).takeWhile Uleb128.continues
  if leading.length = Uleb128.maxGroups then
    throw .verify
  else
    match b.drop leading.length with
    | [] => throw .endOfInput
    | last :: rest =>
      let n ← (leading.reverse.foldlM pushGroup last.toNat : Run Nat)
      return (n, rest)

/-- The shift leaves the low seven bits free, so the group fits in. -/
theorem pushGroup_eq (group : UInt8) (rest : List UInt8) :
    pushGroup (Uleb128.value rest) group = .ok (Uleb128.value (group :: rest)) := by
  rw [pushGroup, shiftLeft_eq (by decide)]
  refine (add_eq ?_).trans (congrArg Except.ok ?_)
  · omega
  · rw [Uleb128.value]
    omega

theorem foldlM_pushGroup {last : UInt8} (h : last.toNat < 128) (groups : List UInt8) :
    groups.reverse.foldlM pushGroup last.toNat = .ok (Uleb128.value (groups ++ [last])) := by
  induction groups with
  | nil =>
    show Except.ok last.toNat = Except.ok ((last.toNat % 128 + 128 * 0) % 0x100000000)
    congr 1
    omega
  | cons group rest ih =>
    -- the fold runs from the most significant group on, so the first one is pushed last
    rw [List.reverse_cons, List.foldlM_append, ih]
    show (pushGroup (Uleb128.value (rest ++ [last])) group >>= pure) = _
    rw [pushGroup_eq]
    rfl

/-- The byte after the leading groups is not one of them. -/
theorem not_continues_of_drop {count : Nat} {b rest : Bytes} {last : UInt8}
    (hn : ((b.take count).takeWhile Uleb128.continues).length ≠ count)
    (h : b.drop ((b.take count).takeWhile Uleb128.continues).length = last :: rest) :
    Uleb128.continues last = false := by
  induction b generalizing count with
  | nil => simp at h
  | cons a b ih =>
    cases count with
    | zero => simp at hn
    | succ count =>
      rw [List.take_succ_cons] at h hn
      cases ha : Uleb128.continues a with
      | true =>
        rw [List.takeWhile_cons_of_pos ha, List.length_cons] at h hn
        exact ih (fun e => hn (congrArg (· + 1) e)) h
      | false =>
        rw [List.takeWhile_cons_of_neg (by simp [ha])] at h
        obtain ⟨rfl, -⟩ := List.cons.inj h
        exact ha

theorem lt_of_not_continues {group : UInt8} (h : Uleb128.continues group = false) :
    group.toNat < 128 := by
  simpa [Uleb128.continues] using h

theorem readUleb128_eq (b : Bytes) : readUleb128 b = finished (Uleb128.read b) := by
  rw [readUleb128, Uleb128.read]
  split
  · rfl
  · rename_i hn
    cases hd : b.drop ((b.take Uleb128.maxGroups).takeWhile Uleb128.continues).length with
    | nil => rfl
    | cons last rest =>
      exact lift_bind (foldlM_pushGroup (lt_of_not_continues (not_continues_of_drop hn hd)) _) _

/-! ## Class data -/

/-- Passes over `count` pairs of numbers. -/
def skipPairs : Nat → Bytes → Fallible ReadFault Bytes
  | 0, b => return b
  | count + 1, b => do
    let (_, b) ← readUleb128 b
    let (_, b) ← readUleb128 b
    skipPairs count b

/-- Reads `count` methods; each index adds to the one before. -/
def readMethods : Nat → Nat → Bytes → Fallible ReadFault (List EncodedMethod × Bytes)
  | 0, _, b => return ([], b)
  | count + 1, previous, b => do
    let (difference, b) ← readUleb128 b
    let (flags, b) ← readUleb128 b
    let (offset, b) ← readUleb128 b
    let index ← add 64 previous difference
    let (later, b) ← readMethods count index b
    let codeOffset := if offset = 0 then none else some offset
    return (⟨index, Dex.MethodFlags.truncate flags, codeOffset⟩ :: later, b)

def readClassDataItem (b : Bytes) : Fallible ReadFault ClassData := do
  let (staticFields, b) ← readUleb128 b
  let (instanceFields, b) ← readUleb128 b
  let (directMethods, b) ← readUleb128 b
  let (virtualMethods, b) ← readUleb128 b
  let b ← skipPairs staticFields b
  let b ← skipPairs instanceFields b
  let (direct, b) ← readMethods directMethods 0 b
  let (virtual, _) ← readMethods virtualMethods 0 b
  return ⟨direct, virtual⟩

theorem skipPairs_eq (count : Nat) (b : Bytes) :
    skipPairs count b = finished (ClassData.skipPairs count b) := by
  induction count generalizing b with
  | zero => rfl
  | succ count ih =>
    simp only [skipPairs, ClassData.skipPairs, readUleb128_eq]
    refine finished_bind fun ⟨_, b⟩ _ => ?_
    exact finished_bind fun ⟨_, b⟩ _ => ih b

/-- Every index is a sum of fewer than `2 ^ 32` numbers of 32 bits. -/
theorem readMethods_eq {count previous : Nat} (h : previous + count * 2 ^ 32 < 2 ^ 64) (b : Bytes) :
    readMethods count previous b = finished (ClassData.readMethods count previous b) := by
  induction count generalizing previous b with
  | zero => rfl
  | succ count ih =>
    simp only [readMethods, ClassData.readMethods, readUleb128_eq]
    refine finished_bind fun ⟨difference, b⟩ hd => ?_
    refine finished_bind fun ⟨flags, b⟩ _ => ?_
    refine finished_bind fun ⟨offset, b⟩ _ => ?_
    have small := Uleb128.lt_of_read hd
    rw [Nat.succ_mul] at h
    refine (lift_bind (add_eq (by omega)) _).trans ?_
    rw [ih (by omega)]
    exact finished_bind fun later _ => rfl

theorem readClassDataItem_eq (b : Bytes) :
    readClassDataItem b = finished (ClassData.read b) := by
  have fits {b rest : Bytes} {count : Nat} (h : Uleb128.read b = .ok (count, rest)) :
      0 + count * 2 ^ 32 < 2 ^ 64 := by
    have := Uleb128.lt_of_read h
    omega
  simp only [readClassDataItem, ClassData.read, readUleb128_eq, skipPairs_eq]
  refine finished_bind fun ⟨staticFields, b⟩ _ => ?_
  refine finished_bind fun ⟨instanceFields, b⟩ _ => ?_
  refine finished_bind fun ⟨directMethods, b⟩ hd => ?_
  refine finished_bind fun ⟨virtualMethods, b⟩ hv => ?_
  refine finished_bind fun b _ => ?_
  refine finished_bind fun b _ => ?_
  rw [readMethods_eq (fits hd)]
  refine finished_bind fun ⟨direct, b⟩ _ => ?_
  dsimp only
  rw [readMethods_eq (fits hv)]
  exact finished_bind fun virtual _ => rfl

/-- The class data at an offset; offset zero is no data. -/
def readClassData (b : Bytes) (offset : Nat) : Fallible Error (Option ClassData) :=
  if offset = 0 then
    return none
  else do
    let rest ← finished (Dex.locate b offset .classData)
    let data ← mapError .malformed (readClassDataItem rest)
    return some data

theorem readClassData_eq (b : Bytes) (offset : Nat) :
    readClassData b offset = finished (Dex.readClassData b offset) := by
  rw [readClassData, Dex.readClassData]
  split
  · rfl
  · refine finished_bind fun rest _ => ?_
    rw [readClassDataItem_eq, mapError_finished]
    cases ClassData.read rest with
    | error fault => rfl
    | ok data => rfl

/-- A class with its data and its interfaces, in this order. -/
def readClass (b record : Bytes) : Fallible Error ClassDef := do
  let data ← readClassData b (Bytes.u32At record 24)
  let interfaces ← finished (Dex.typeList b (Bytes.u32At record 12))
  let superclass := Bytes.u32At record 8
  return {
    type := Bytes.u32At record 0
    flags := Dex.ClassFlags.truncate (Bytes.u32At record 4)
    superclass := if superclass = Dex.noIndex then none else some superclass
    interfaces := interfaces
    data := data }

theorem readClass_eq (b record : Bytes) :
    readClass b record = finished (Dex.readClass b record) := by
  rw [readClass, Dex.readClass, readClassData_eq]
  refine finished_bind fun data _ => ?_
  exact finished_bind fun interfaces _ => rfl

/-! ## Tables -/

/-- The records of a table. An end that is not a word is found out and reported, like one that
lies behind the file. -/
def tableRecords (b : Bytes) (table : Table) (extent : Extent) (recordSize : Nat) :
    Fallible Error (List Bytes) :=
  if extent.size = 0 then
    return []
  else
    let stop? : Run Nat := do add 64 extent.offset (← mul 64 extent.size recordSize)
    match stop? with
    | .error _ => throw (.invalidOffset (.table table))
    | .ok stop =>
      if stop ≤ b.length then do
        let records ← slice b extent.offset stop
        return Bytes.chunks recordSize extent.size records
      else
        throw (.invalidOffset (.table table))

theorem tableRecords_eq (b : Bytes) (table : Table) {extent : Extent} {recordSize : Nat}
    (hs : extent.size < 2 ^ 32) (ho : extent.offset < 2 ^ 32) (hr : recordSize ≤ 32) :
    tableRecords b table extent recordSize =
      finished (Dex.tableRecords b table extent recordSize) := by
  rw [tableRecords, Dex.tableRecords]
  -- the end of a table that a header can state is far below `2 ^ 64`
  have product : extent.size * recordSize ≤ extent.size * 32 := Nat.mul_le_mul_left _ hr
  split
  · rfl
  · simp only [mul_eq (show extent.size * recordSize < 2 ^ 64 by omega),
      add_eq (show extent.offset + extent.size * recordSize < 2 ^ 64 by omega),
      Bind.bind, Except.bind]
    split
    · rename_i inside
      have cut := slice_eq (Nat.le_add_right extent.offset (extent.size * recordSize)) inside
      refine (lift_bind cut _).trans ?_
      rw [List.drop_take, Nat.add_sub_cancel_left, Bytes.chunks_take]
      rfl
    · rfl

/-! ## Files -/

/-- The checksum and the signature that a file should have. -/
def integrity (b : Bytes) : Run (Nat × Bytes) := do
  let summed ← sliceFrom b 12
  let signed ← sliceFrom b 32
  return (Adler32.checksum summed, Sha1.digest signed)

/-- Reads a file: the header, then the tables one after another. The checksum and the signature
are computed in between; a difference is only logged. -/
def read (b : Bytes) : Fallible Error Dex := do
  let header ← finished (Header.read b)
  if !header.isSupported then
    throw (.unsupportedVersion header.versionText)
  let _ ← integrity b
  let strings ← tableRecords b .strings header.strings 4
  let types ← tableRecords b .types header.types 4
  let protos ← tableRecords b .protos header.protos 12
  let protos ← finished (protos.mapM (Dex.readProto b))
  let fields ← tableRecords b .fields header.fields 8
  let methods ← tableRecords b .methods header.methods 8
  let classes ← tableRecords b .classes header.classes 32
  let classes ← classes.mapM (readClass b)
  return {
    header := header
    raw := b
    strings := strings.map (Bytes.u32At · 0)
    types := types.map (Bytes.u32At · 0)
    protos := protos
    fields := fields.map Dex.readField
    methods := methods.map Dex.readMethod
    classes := classes }

/-- A header that is accepted is there as a whole, and its numbers are those of the bytes. -/
theorem header_of_read {b : Bytes} {header : Header} (h : Header.read b = .ok header) :
    Header.size ≤ b.length ∧ ∃ version, header = Header.ofBytes version b := by
  rw [Header.read, bind_eq_ok_iff] at h
  obtain ⟨version, -, h⟩ := h
  dsimp only [Bind.bind, Except.bind, throw, throwThe, MonadExceptOf.throw] at h
  -- one check after another; a header is the result of the last one only
  iterate 6 (split at h; · cases h)
  rename_i long
  exact ⟨Nat.le_of_not_lt long, version, (Except.ok.inj h).symm⟩

theorem integrity_eq {b : Bytes} (h : Header.size ≤ b.length) :
    integrity b = .ok (Adler32.checksum (b.drop 12), Sha1.digest (b.drop 32)) := by
  have long : 112 ≤ b.length := h
  rw [integrity, sliceFrom_eq (show 12 ≤ b.length by omega),
    sliceFrom_eq (show 32 ≤ b.length by omega)]
  rfl

theorem read_eq (b : Bytes) : read b = finished (Dex.read b) := by
  rw [read, Dex.read]
  refine finished_bind fun header hh => ?_
  obtain ⟨long, version, rfl⟩ := header_of_read hh
  -- the position and the length of each table are numbers of 32 bits in the header
  have table (table : Table) (i recordSize : Nat) (hr : recordSize ≤ 32) :
      tableRecords b table (Header.extentAt b i) recordSize =
        finished (Dex.tableRecords b table (Header.extentAt b i) recordSize) :=
    tableRecords_eq b table (Bytes.u32At_lt b i) (Bytes.u32At_lt b (i + 4)) hr
  split
  · rfl
  · refine (lift_bind (integrity_eq long) _).trans ?_
    simp only [Header.ofBytes]
    rw [table .strings 56 4 (by decide)]
    refine finished_bind fun strings _ => ?_
    rw [table .types 64 4 (by decide)]
    refine finished_bind fun types _ => ?_
    rw [table .protos 72 12 (by decide)]
    refine finished_bind fun protoRecords _ => ?_
    refine finished_bind fun protos _ => ?_
    rw [table .fields 80 8 (by decide)]
    refine finished_bind fun fields _ => ?_
    rw [table .methods 88 8 (by decide)]
    refine finished_bind fun methods _ => ?_
    rw [table .classes 96 32 (by decide)]
    refine finished_bind fun classRecords _ => ?_
    rw [finished_mapM fun record _ => readClass_eq b record]
    exact finished_bind fun classes _ => rfl

end Machine

end PermissionAudit
