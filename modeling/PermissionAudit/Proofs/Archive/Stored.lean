import PermissionAudit.Archive.Zip
import PermissionAudit.Proofs.Bytes.ReadBack
import PermissionAudit.Proofs.Sequence.Checked

/-!
Archives of files that are not compressed: the files, each behind a header of its
own, then the directory and the record that closes it. Reading such an archive
gives an entry for each file, in order, and through the entry its contents.
-/

namespace PermissionAudit.Zip

open Bytes (HoldsAt)

/-! ## Numbers -/

/-- A number in `width` bytes, the low one first. -/
def write : Nat → Nat → Bytes
  | 0, _ => []
  | width + 1, n => UInt8.ofNat n :: write width (n / 256)

/-- Numbers one after another, each in its own width. -/
def writeAll : List (Nat × Nat) → Bytes
  | [] => []
  | (width, n) :: rest => write width n ++ writeAll rest

@[simp] theorem length_write (width n : Nat) : (write width n).length = width := by
  induction width generalizing n with
  | zero => rfl
  | succ width ih => rw [write, List.length_cons, ih]

theorem length_writeAll (fields : List (Nat × Nat)) :
    (writeAll fields).length = (fields.map (·.1)).sum := by
  induction fields with
  | nil => rfl
  | cons field rest ih =>
    rw [writeAll, List.length_append, length_write, ih, List.map_cons, List.sum_cons]

theorem writeAll_append (fields more : List (Nat × Nat)) :
    writeAll (fields ++ more) = writeAll fields ++ writeAll more := by
  induction fields with
  | nil => rfl
  | cons field rest ih => rw [List.cons_append, writeAll, writeAll, ih, List.append_assoc]

section

variable {b : Bytes} {i : Nat}

theorem number_of_holdsAt {width n : Nat} (h : HoldsAt b i (write width n))
    (fits : n < 256 ^ width) : number b.toArray i width = .ok n := by
  induction width generalizing i n with
  | zero =>
    rw [Nat.pow_zero, Nat.lt_one_iff] at fits
    rw [number, fits]
  | succ width ih =>
    have byte : b.toArray[i]? = some (UInt8.ofNat n) := by
      obtain ⟨after, hafter⟩ := h
      rw [List.getElem?_toArray, ← Nat.add_zero i, ← List.getElem?_drop, ← hafter]
      rfl
    have behind : HoldsAt b (i + 1) (write width (n / 256)) :=
      (show HoldsAt b i ([UInt8.ofNat n] ++ write width (n / 256)) from h).right
    have rest := ih behind (Nat.div_lt_of_lt_mul (by rwa [Nat.mul_comm, ← Nat.pow_succ]))
    simp only [number, byte, rest]
    show Except.ok ((UInt8.ofNat n).toNat + 256 * (n / 256)) = Except.ok n
    rw [UInt8.toNat_ofNat']
    exact congrArg Except.ok (Nat.mod_add_div n 256)

theorem numbers_of_holdsAt {fields : List (Nat × Nat)} (h : HoldsAt b i (writeAll fields))
    (fits : ∀ field ∈ fields, field.2 < 256 ^ field.1) :
    numbers b.toArray i (fields.map (·.1)) = .ok (fields.map (·.2)) := by
  induction fields generalizing i with
  | nil => rfl
  | cons field rest ih =>
    have first := number_of_holdsAt h.left (fits field (by simp))
    have later := ih (length_write field.1 field.2 ▸ h.right) fun f hf => fits f (by simp [hf])
    simp only [List.map_cons, numbers, first, later]
    rfl

theorem extract_of_holdsAt {block : Bytes} (h : HoldsAt b i block) :
    b.toArray.extract i (i + block.length) = block.toArray := by
  obtain ⟨after, hafter⟩ := h
  rw [List.extract_toArray, List.extract_eq_take_drop, Nat.add_sub_cancel_left, ← hafter,
    List.take_left]

theorem slice_of_holdsAt {block : Bytes} (h : HoldsAt b i block) (hi : i ≤ b.length) :
    slice b.toArray i block.length = .ok block.toArray := by
  have length := List.IsPrefix.length_le h
  rw [List.length_drop] at length
  rw [slice, List.size_toArray, if_pos (by omega), extract_of_holdsAt h]

end

/-! ## Files -/

/-- A file that is stored in an archive. -/
structure File where
  name : Bytes
  contents : Bytes

namespace File

def checksum (f : File) : Nat := (Crc32.checksum f.contents).toNat

/-- What both headers of a file say. -/
def info (f : File) : List (Nat × Nat) :=
  [(2, 0), (2, 0), (2, 0), (2, 0), (2, 0), (4, f.checksum), (4, f.contents.length),
    (4, f.contents.length)] ++ [(2, f.name.length), (2, 0)]

/-- The file behind its own header. -/
def bytes (f : File) : Bytes :=
  write 4 Entry.headerSignature ++ (writeAll f.info ++ (f.name ++ f.contents))

/-- Every file has a comment of zeros, so that no other record is seen in the directory. -/
def comment : Bytes := List.replicate 20 0

def fields (f : File) (start : Nat) : List (Nat × Nat) :=
  (2, 0) :: (f.info ++ [(2, comment.length), (2, 0), (2, 0), (4, 0), (4, start)])

/-- The record of the directory for a file that starts at a position. -/
def record (f : File) (start : Nat) : Bytes :=
  write 4 Entry.signature ++ (writeAll (f.fields start) ++ (f.name ++ comment))

/-- What is read from the record. -/
def entry (f : File) (start : Nat) : Entry :=
  ⟨false, 0, false, f.checksum, f.contents.length, f.contents.length, f.name.toArray, start⟩

/-- The sizes of a file and its place fit their fields. -/
structure Fits (f : File) (start : Nat) : Prop where
  name : f.name.length < 256 ^ 2
  contents : f.contents.length < 256 ^ 4
  start : start < 256 ^ 4

variable {f : File} {start : Nat}

theorem checksum_lt (f : File) : f.checksum < 256 ^ 4 := UInt32.toNat_lt _

theorem Fits.fields (fits : f.Fits start) : ∀ field ∈ f.fields start, field.2 < 256 ^ field.1 := by
  have hname := fits.name
  have hcontents := fits.contents
  have hstart := fits.start
  have hchecksum := f.checksum_lt
  simp [File.fields, File.info, comment] at *
  omega

theorem length_info (f : File) : (writeAll f.info).length = 26 := by
  simp [length_writeAll, info]

theorem length_fields (f : File) (start : Nat) : (writeAll (f.fields start)).length = 42 := by
  rw [fields, writeAll, writeAll_append, List.length_append, List.length_append, length_write,
    length_info, length_writeAll]
  rfl

theorem length_record (f : File) (start : Nat) :
    (f.record start).length = 46 + f.name.length + comment.length := by
  simp only [record, List.length_append, length_write, length_fields]
  omega

theorem read_record {b : Bytes} {i : Nat} (h : HoldsAt b i (f.record start))
    (fits : f.Fits start) :
    Entry.read b.toArray 0 i = .ok (f.entry start, i + (f.record start).length) := by
  have hfields : HoldsAt b (i + 4) (writeAll (f.fields start) ++ (f.name ++ comment)) := h.right
  have hname : HoldsAt b (i + 46) (f.name ++ comment) := by
    have := hfields.right
    rwa [length_fields, Nat.add_assoc] at this
  have hcomment : HoldsAt b (i + 46 + f.name.length) comment := hname.right
  have bound : i + 46 + f.name.length + comment.length ≤ b.length :=
    hcomment.length_le (by decide)
  have mark : number b.toArray i 4 = .ok Entry.signature := number_of_holdsAt h.left (by decide)
  have numbers : numbers b.toArray (i + 4) [2, 2, 2, 2, 2, 2, 4, 4, 4, 2, 2, 2, 2, 2, 4, 4] =
      .ok [0, 0, 0, 0, 0, 0, f.checksum, f.contents.length, f.contents.length, f.name.length, 0,
        comment.length, 0, 0, 0, start] := numbers_of_holdsAt hfields.left fits.fields
  have name := slice_of_holdsAt hname.left (by omega)
  have extra : slice b.toArray (i + 46 + f.name.length) 0 = .ok #[] :=
    slice_of_holdsAt List.nil_prefix (by omega)
  have remark := slice_of_holdsAt hcomment (by omega)
  have plain (e : Entry) : Entry.readExtra #[] (#[] : Source).size 0 e = .ok e := rfl
  have method : ¬ (0 = Entry.cipherMethod ∧ (!false) = true) := by decide
  have place : ¬ placeLimit ≤ start := by
    have := fits.start
    rw [placeLimit]
    omega
  have next : i + (f.record start).length = i + 46 + f.name.length + comment.length := by
    rw [length_record]
    omega
  rw [next]
  simp only [Entry.read, mark, numbers, name, extra, Nat.add_zero, remark, plain, bind, Except.bind,
    ne_eq, not_true_eq_false, if_false, if_neg method, if_neg place]
  rfl

theorem length_bytes (f : File) : f.bytes.length = 30 + f.name.length + f.contents.length := by
  simp only [bytes, List.length_append, length_write, length_info]
  omega

/-- The file is found behind its header. -/
theorem stored_entry {b : Bytes} (h : HoldsAt b start f.bytes) (fits : f.Fits start) :
    (f.entry start).stored b.toArray = .ok f.contents.toArray := by
  have bound := h.length_le (by rw [length_bytes]; omega)
  rw [length_bytes] at bound
  have hinfo : HoldsAt b (start + 4) (writeAll f.info ++ (f.name ++ f.contents)) := h.right
  have hlengths : HoldsAt b (start + 26) (writeAll [(2, f.name.length), (2, 0)]) := by
    have := hinfo.left
    rw [info, writeAll_append] at this
    exact this.right
  have hcontents : HoldsAt b (start + 30 + f.name.length) f.contents := by
    have := hinfo.right.right
    rwa [length_info] at this
  have mark : number b.toArray start 4 = .ok Entry.headerSignature :=
    number_of_holdsAt h.left (by decide)
  have lengths : numbers b.toArray (start + 26) [2, 2] = .ok [f.name.length, 0] := by
    refine numbers_of_holdsAt hlengths ?_
    simpa using fits.name
  have place : ¬ fileLimit ≤ start := by
    have := fits.start
    rw [fileLimit]
    omega
  have whole : min b.length (start + 30 + f.name.length + f.contents.length) =
      start + 30 + f.name.length + f.contents.length := by
    omega
  simp only [Entry.stored, entry, mark, lengths, bind, Except.bind, Nat.add_zero, if_neg place,
    List.size_toArray, whole, extract_of_holdsAt hcontents, ne_eq, not_true_eq_false, if_false]
  rfl

theorem contents_entry (f : File) (start : Nat) :
    (f.entry start).contents f.contents.toArray = .ok f.contents := by
  rw [Entry.contents]
  exact if_pos rfl

end File

/-! ## Archives -/

/-- The directory of files that stand one after another from a position on. -/
def records (start : Nat) : List File → Bytes
  | [] => []
  | f :: rest => f.record start ++ records (start + f.bytes.length) rest

/-- What is read from the directory. -/
def entriesFrom (start : Nat) : List File → List Entry
  | [] => []
  | f :: rest => f.entry start :: entriesFrom (start + f.bytes.length) rest

/-- The record that closes the directory. -/
def closing (files : List File) : Bytes :=
  write 4 DirectoryEnd.signature ++
    writeAll [(2, 0), (2, 0), (2, files.length), (2, files.length),
      (4, (records 0 files).length), (4, (files.flatMap File.bytes).length), (2, 0)]

/-- The archive of files. -/
def archive (files : List File) : Bytes :=
  files.flatMap File.bytes ++ records 0 files ++ closing files

/-- The archive can be written: the counts and sizes fit their fields. -/
structure Fits (files : List File) : Prop where
  count : files.length < 256 ^ 2
  names : ∀ f ∈ files, f.name.length < 256 ^ 2
  size : (archive files).length < 256 ^ 4

/-- The entries belong to the files in their order, each to one that stands where the entry says. -/
theorem forall₂_entriesFrom {b : Bytes} {start : Nat} {files : List File}
    (h : HoldsAt b start (files.flatMap File.bytes))
    (names : ∀ f ∈ files, f.name.length < 256 ^ 2) (size : b.length < 256 ^ 4) :
    List.Forall₂ (fun e f => ∃ i, e = f.entry i ∧ e.stored b.toArray = .ok f.contents.toArray)
      (entriesFrom start files) files := by
  induction files generalizing start with
  | nil => exact .nil
  | cons f rest ih =>
    rw [List.flatMap_cons] at h
    have length := f.length_bytes
    have bound := h.left.length_le (by omega)
    have stored := File.stored_entry h.left ⟨names f (by simp), by omega, by omega⟩
    exact .cons ⟨start, rfl, stored⟩ (ih h.right fun g hg => names g (by simp [hg]))

theorem readMany_records {b : Bytes} {i start : Nat} {files : List File}
    (h : HoldsAt b i (records start files)) (names : ∀ f ∈ files, f.name.length < 256 ^ 2)
    (size : start + (files.flatMap File.bytes).length < 256 ^ 4) :
    Entry.readMany b.toArray 0 files.length i = .ok (entriesFrom start files) := by
  induction files generalizing i start with
  | nil => rfl
  | cons f rest ih =>
    rw [List.flatMap_cons, List.length_append] at size
    have length := f.length_bytes
    have first := File.read_record h.left
      ⟨names f (by simp), by omega, by omega⟩
    have later := ih h.right (fun g hg => names g (by simp [hg])) (by omega)
    simp only [List.length_cons, Entry.readMany, first, later, bind, Except.bind]
    rfl

theorem length_closing (files : List File) : (closing files).length = DirectoryEnd.fixedSize := by
  rw [closing, List.length_append, length_write, length_writeAll]
  rfl

theorem exists_records_eq_append_comment (start : Nat) {files : List File} (h : files ≠ []) :
    ∃ front, records start files = front ++ File.comment := by
  induction files generalizing start with
  | nil => exact absurd rfl h
  | cons f rest ih =>
    cases rest with
    | nil =>
      refine ⟨write 4 Entry.signature ++ (writeAll (f.fields start) ++ f.name), ?_⟩
      simp [records, File.record]
    | cons g rest =>
      obtain ⟨front, hfront⟩ := ih (start + f.bytes.length) (List.cons_ne_nil g rest)
      exact ⟨f.record start ++ front, by rw [records, hfront, List.append_assoc]⟩

section

variable {files : List File}

/-- Where the record stands that closes the directory. -/
theorem holdsAt_closing (files : List File) :
    HoldsAt (archive files) ((files.flatMap File.bytes).length + (records 0 files).length)
      (closing files) := by
  have := HoldsAt.of_append (files.flatMap File.bytes ++ records 0 files) (closing files) []
  rwa [List.append_nil, List.length_append] at this

theorem length_archive (files : List File) : (archive files).length =
    (files.flatMap File.bytes).length + (records 0 files).length + DirectoryEnd.fixedSize := by
  rw [archive, List.length_append, List.length_append, length_closing]

/-- No large directory is announced: zeros stand where its locator would. -/
theorem number_locator (h : 20 + DirectoryEnd.fixedSize ≤ (archive files).length) :
    number (archive files).toArray ((archive files).length - (20 + DirectoryEnd.fixedSize)) 4 =
      .ok 0 := by
  have some_files : files ≠ [] := by
    rintro rfl
    exact absurd h (by decide)
  obtain ⟨front, hfront⟩ := exists_records_eq_append_comment 0 some_files
  have split : archive files = (files.flatMap File.bytes ++ front) ++ File.comment ++
      closing files := by
    rw [archive, hfront, List.append_assoc _ front]
  have place : (archive files).length - (20 + DirectoryEnd.fixedSize) =
      (files.flatMap File.bytes ++ front).length := by
    rw [split, List.length_append, List.length_append, length_closing, File.comment,
      List.length_replicate, Nat.add_assoc, Nat.add_sub_cancel]
  rw [place, split]
  exact number_of_holdsAt (HoldsAt.of_append _ File.comment _).left (by decide)

theorem find_closing (fits : Fits files) :
    DirectoryEnd.find (archive files).toArray =
      .ok ⟨(files.flatMap File.bytes).length + (records 0 files).length, 0, 0, files.length,
        files.length, (records 0 files).length, (files.flatMap File.bytes).length, 0⟩ := by
  have length := length_archive files
  have holds := holdsAt_closing files
  have size := fits.size
  have count := fits.count
  rw [closing] at holds
  generalize (files.flatMap File.bytes).length = body at *
  generalize (records 0 files).length = directory at *
  have mark : number (archive files).toArray (body + directory) 4 = .ok DirectoryEnd.signature :=
    number_of_holdsAt holds.left (by decide)
  have numbers : numbers (archive files).toArray (body + directory + 4) [2, 2, 2, 2, 4, 4, 2] =
      .ok [0, 0, files.length, files.length, directory, body, 0] := by
    refine numbers_of_holdsAt holds.right ?_
    simp at size count ⊢
    omega
  have remark : slice (archive files).toArray (body + directory + DirectoryEnd.fixedSize) 0 =
      .ok #[] := slice_of_holdsAt List.nil_prefix (Nat.le_of_eq length.symm)
  have found : DirectoryEnd.findFrom (archive files).toArray (body + directory) (0xFFFE + 1) =
      some (body + directory) := by
    rw [DirectoryEnd.findFrom, if_pos (by simp [hasMark, mark])]
  rw [DirectoryEnd.find, List.size_toArray, length, if_neg (by omega), Nat.add_sub_cancel, found]
  simp only [DirectoryEnd.read, numbers, remark, bind, Except.bind]
  rfl

theorem find_directory (fits : Fits files) :
    Directory.find (archive files).toArray =
      .ok ⟨0, (files.flatMap File.bytes).length, files.length⟩ := by
  have ending : Directory.ofEnd
      ⟨(files.flatMap File.bytes).length + (records 0 files).length, 0, 0, files.length,
        files.length, (records 0 files).length, (files.flatMap File.bytes).length, 0⟩ =
      .ok ⟨0, (files.flatMap File.bytes).length, files.length⟩ := by
    rw [Directory.ofEnd, if_neg (by dsimp only; omega), Nat.add_sub_cancel, Nat.sub_self]
  have locator : ¬ 0 = Directory.locatorSignature := by decide
  rw [Directory.find, find_closing fits]
  simp only [bind, Except.bind, ne_eq, not_true_eq_false, and_false, if_false, List.size_toArray,
    Nat.add_zero]
  split
  · rename_i h
    rw [number_locator h]
    exact (if_neg locator).trans ending
  · exact ending

theorem entries_archive (fits : Fits files) :
    entries (archive files).toArray = .ok (entriesFrom 0 files) := by
  have size := fits.size
  rw [length_archive] at size
  have place : ¬ fileLimit ≤ (files.flatMap File.bytes).length := by
    rw [fileLimit]
    omega
  have holds : HoldsAt (archive files) (files.flatMap File.bytes).length (records 0 files) :=
    HoldsAt.of_append _ _ _
  have read := readMany_records holds fits.names (by omega)
  simp only [entries, find_directory fits, bind, Except.bind, if_neg place]
  exact read

/-- The entries lead to the contents of the files, and have their names. -/
theorem forall₂_entries (fits : Fits files) :
    List.Forall₂ (fun e f => e.name = f.name.toArray ∧
      e.stored (archive files).toArray = .ok f.contents.toArray ∧
      e.contents f.contents.toArray = .ok f.contents) (entriesFrom 0 files) files := by
  have holds : HoldsAt (archive files) 0 (files.flatMap File.bytes) := by
    have := HoldsAt.of_append [] (files.flatMap File.bytes) (records 0 files ++ closing files)
    rwa [List.nil_append, ← List.append_assoc] at this
  refine (forall₂_entriesFrom holds fits.names fits.size).imp fun e f h => ?_
  obtain ⟨i, rfl, stored⟩ := h
  exact ⟨rfl, stored, f.contents_entry i⟩

/-- Each entry leads to the contents of a file of its name. -/
theorem exists_file_of_mem_entries (fits : Fits files) {e : Entry}
    (he : e ∈ entriesFrom 0 files) :
    ∃ f ∈ files, e.name = f.name.toArray ∧
      e.stored (archive files).toArray = .ok f.contents.toArray ∧
      e.contents f.contents.toArray = .ok f.contents :=
  exists_of_forall₂_left (forall₂_entries fits) he

end

end PermissionAudit.Zip
