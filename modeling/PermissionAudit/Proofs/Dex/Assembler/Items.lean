import PermissionAudit.Dex.Lookup
import PermissionAudit.Proofs.Dex.Assembler.Layout
import PermissionAudit.Proofs.Text.Mutf8

/-!
Each kind of data is read back where it was placed: string data, type lists,
class data and code.
-/

namespace PermissionAudit.Assembler

open Bytes (HoldsAt le16 le32)

theorem locate_of_holdsAt {file block : Bytes} {offset : Nat} (h : HoldsAt file offset block)
    (hpos : 0 < block.length) (item : Dex.Item) :
    ∃ after, Dex.locate file offset item = .ok (block ++ after) := by
  obtain ⟨after, hafter⟩ := h
  refine ⟨after, ?_⟩
  unfold Dex.locate
  rw [← hafter]
  cases block with
  | nil => exact absurd hpos (Nat.lt_irrefl 0)
  | cons b rest => rfl

theorem map_toNat_ofNat {types : List Nat} (h : ∀ t ∈ types, t < 65536) :
    (types.map UInt16.ofNat).map (·.toNat) = types := by
  have hround : ∀ t ∈ types, (UInt16.ofNat t).toNat = id t := by
    intro t ht
    rw [UInt16.toNat_ofNat']
    exact Nat.mod_eq_of_lt (h t ht)
  rw [List.map_map]
  exact (List.map_congr_left hround).trans (List.map_id types)

/-- A character takes no more 16-bit units than bytes. -/
theorem length_encodeChar_le (c : Char) :
    (Utf16.encodeChar c).length ≤ (String.utf8EncodeChar c).length := by
  have hpos := c.utf8Size_pos
  rw [String.length_utf8EncodeChar]
  unfold Utf16.encodeChar
  split
  · exact hpos
  · rename_i hbig
    have hone : c.utf8Size ≠ 1 := by
      rw [Ne, Char.utf8Size_eq_one_iff, UInt32.le_iff_toNat_le]
      change ¬ c.toNat ≤ 127
      omega
    simp only [List.length_cons, List.length_nil]
    omega

theorem length_utf16_le (cs : List Char) :
    (Utf16.encode cs).length ≤ (cs.flatMap String.utf8EncodeChar).length := by
  induction cs with
  | nil => exact Nat.le_refl 0
  | cons c rest ih =>
    have hc := length_encodeChar_le c
    simp only [Utf16.encode, List.flatMap_cons, List.length_append] at ih ⊢
    omega

theorem length_stringBlock_pos (s : String) : 0 < (stringBlock s).length := by
  simp only [stringBlock, List.length_append, List.length_singleton]
  omega

section

variable {file : Bytes} {offset : Nat} (hfile : file.length < 4294967296)

include hfile

/-! ## Type lists -/

theorem typeList_eq {types : List Nat} (htypes : ∀ t ∈ types, t < 65536)
    (h : Placed file (typeListBlock types) offset) : Dex.typeList file offset = .ok types := by
  unfold typeListBlock at h
  cases types with
  | nil =>
    obtain rfl : offset = 0 := h
    rfl
  | cons t rest =>
    obtain ⟨hpos, hblock⟩ := h
    -- from here on the list is any that is written out
    generalize t :: rest = types at *
    have hlength : (le32 types.length ++ types.flatMap le16).length = 4 + 2 * types.length := by
      rw [List.length_append, Bytes.length_flatMap_le16]
      rfl
    have hle := hblock.length_le (by omega)
    obtain ⟨after, hlocate⟩ := locate_of_holdsAt hblock (by omega) .typeList
    unfold Dex.typeList
    rw [if_neg (by omega), hlocate]
    have hcount : Bytes.u32At (le32 types.length ++ types.flatMap le16 ++ after) 0 =
        types.length := by
      rw [List.append_assoc, Bytes.u32At_le32, Nat.mod_eq_of_lt (by omega)]
    have hunits : (List.drop 4 (le32 types.length ++ types.flatMap le16 ++ after)).take
        (2 * types.length) = types.flatMap le16 := by
      rw [List.append_assoc, ← Bytes.length_le32 types.length, List.drop_left,
        ← Bytes.length_flatMap_le16, List.take_left]
    dsimp only [Bind.bind, Except.bind]
    rw [hcount, if_neg (by rw [List.length_append, hlength]; omega), hunits,
      Bytes.units_flatMap_le16, map_toNat_ofNat htypes]
    rfl

/-! ## String data -/

theorem stringData_eq {s : String} (hs : Mutf8.IsPlain s)
    (h : Placed file (some (stringBlock s)) offset) :
    Dex.stringData file offset = .ok (Utf8.encode s) := by
  obtain ⟨-, hblock⟩ := h
  have hpos := length_stringBlock_pos s
  have hle := hblock.length_le hpos
  have hunits : (Utf16.encode s.toList).length < 4294967296 := by
    have hshort := length_utf16_le s.toList
    simp only [stringBlock, Utf8.encode, List.length_append] at hle
    omega
  obtain ⟨after, hlocate⟩ := locate_of_holdsAt hblock hpos .stringData
  have hread : Uleb128.read (stringBlock s ++ after) =
      .ok ((Utf16.encode s.toList).length, Utf8.encode s ++ ([0] ++ after)) := by
    rw [stringBlock, List.append_assoc, List.append_assoc, Uleb128.read_write hunits]
  have hcoded : (Utf8.encode s ++ ([0] ++ after)).takeWhile (· ≠ 0) = Utf8.encode s := by
    rw [List.takeWhile_append_of_pos]
    · simp
    · intro b hb
      simp only [ne_eq, decide_not, Bool.not_eq_eq_eq_not, Bool.not_true, decide_eq_false_iff_not]
      rintro rfl
      exact Mutf8.zero_notMem_utf8 hs hb
  unfold Dex.stringData
  rw [hlocate]
  dsimp only [Bind.bind, Except.bind]
  rw [hread]
  dsimp only
  rw [hcoded, if_neg (by simp)]
  rfl

/-! ## Code -/

/-- A method as class data lists it. -/
def encoded (codeOffset : Nat → Nat) (m : Method) : Dex.EncodedMethod where
  index := m.index
  flags := Dex.MethodFlags.truncate m.flags
  codeOffset := if codeOffset m.index = 0 then none else some (codeOffset m.index)

end

/-- Methods that follow one another by their index are read back. -/
theorem readMethods_methodRun {codeOffset : Nat → Nat}
    (hoffset : ∀ index, codeOffset index < 4294967296) {methods : List Method}
    (hsorted : methods.Pairwise (·.index ≤ ·.index))
    (hshort : ∀ m ∈ methods, m.index < 4294967296 ∧ m.flags < 4294967296) {previous : Nat}
    (hprevious : ∀ m ∈ methods, previous ≤ m.index) (rest : Bytes) :
    Dex.ClassData.readMethods methods.length previous
      (methodRun codeOffset previous methods ++ rest) =
        .ok (methods.map (encoded codeOffset), rest) := by
  induction methods generalizing previous with
  | nil => rfl
  | cons m later ih =>
    obtain ⟨hfirst, hlater⟩ := List.pairwise_cons.mp hsorted
    obtain ⟨hindex, hflags⟩ := hshort m List.mem_cons_self
    have hle := hprevious m List.mem_cons_self
    have ih := ih hlater (fun m hm => hshort m (List.mem_cons_of_mem _ hm)) hfirst
    -- indices are written as differences, which the order of the methods keeps from being cut off
    have hsum : previous + (m.index - previous) = m.index := by omega
    rw [methodRun, List.length_cons, Dex.ClassData.readMethods]
    simp only [List.append_assoc]
    rw [Uleb128.read_write (by omega)]
    dsimp only [Bind.bind, Except.bind]
    rw [Uleb128.read_write hflags]
    dsimp only
    rw [Uleb128.read_write (hoffset m.index)]
    dsimp only
    rw [hsum, ih]
    rfl

theorem length_le_methodRun (codeOffset : Nat → Nat) (previous : Nat) (methods : List Method) :
    methods.length ≤ (methodRun codeOffset previous methods).length := by
  induction methods generalizing previous with
  | nil => exact Nat.le_refl 0
  | cons m rest ih =>
    have hpos := Uleb128.length_write_pos (m.index - previous)
    have hrest := ih m.index
    simp only [methodRun, List.length_append, List.length_cons]
    omega

theorem pairwise_sortMethods (methods : List Method) :
    (sortMethods methods).Pairwise (·.index ≤ ·.index) := by
  have hsorted := @List.pairwise_mergeSort _ (fun a b : Method => decide (a.index ≤ b.index))
    (fun a b c hab hbc => by simp only [decide_eq_true_eq] at *; omega)
    (fun a b => by simp only [Bool.or_eq_true, decide_eq_true_eq]; omega) methods
  exact hsorted.imp fun h => of_decide_eq_true h

theorem mem_sortMethods {methods : List Method} {m : Method} :
    m ∈ sortMethods methods ↔ m ∈ methods :=
  (List.mergeSort_perm methods _).mem_iff

theorem length_sortMethods (methods : List Method) :
    (sortMethods methods).length = methods.length :=
  (List.mergeSort_perm methods _).length_eq

/-- What is read back of a class: its data with the methods in order, or nothing. -/
def classData (codeOffset : Nat → Nat) (c : Class) : Option Dex.ClassData :=
  if c.direct.isEmpty && c.virtual.isEmpty then none
  else some ⟨(sortMethods c.direct).map (encoded codeOffset),
    (sortMethods c.virtual).map (encoded codeOffset)⟩

section

variable {codeOffset : Nat → Nat} (hoffset : ∀ index, codeOffset index < 4294967296) {c : Class}
  (hshort : ∀ m ∈ c.direct ++ c.virtual, m.index < 4294967296 ∧ m.flags < 4294967296)

include hoffset hshort

theorem read_classDataBlock (hdirect : c.direct.length < 4294967296)
    (hvirtual : c.virtual.length < 4294967296) (after : Bytes) :
    Dex.ClassData.read (Uleb128.write 0 ++ Uleb128.write 0 ++ Uleb128.write c.direct.length ++
      Uleb128.write c.virtual.length ++ methodRun codeOffset 0 (sortMethods c.direct) ++
      methodRun codeOffset 0 (sortMethods c.virtual) ++ after) =
        .ok ⟨(sortMethods c.direct).map (encoded codeOffset),
          (sortMethods c.virtual).map (encoded codeOffset)⟩ := by
  have hruns : ∀ {methods : List Method} (_ : ∀ m ∈ methods, m ∈ c.direct ++ c.virtual)
      (rest : Bytes), Dex.ClassData.readMethods methods.length 0
        (methodRun codeOffset 0 (sortMethods methods) ++ rest) =
          .ok ((sortMethods methods).map (encoded codeOffset), rest) := by
    intro methods hmem rest
    have hall : ∀ m ∈ sortMethods methods, m.index < 4294967296 ∧ m.flags < 4294967296 :=
      fun m hm => hshort m (hmem m (mem_sortMethods.mp hm))
    have hrun := readMethods_methodRun hoffset (pairwise_sortMethods methods) hall
      (fun m _ => Nat.zero_le m.index) rest
    rwa [length_sortMethods] at hrun
  have hfirst := hruns (fun m hm => List.mem_append_left c.virtual hm)
    (methodRun codeOffset 0 (sortMethods c.virtual) ++ after)
  have hsecond := hruns (fun m hm => List.mem_append_right c.direct hm) after
  simp only [List.append_assoc]
  unfold Dex.ClassData.read
  rw [Uleb128.read_write (by decide)]
  dsimp only [Bind.bind, Except.bind]
  rw [Uleb128.read_write (by decide)]
  dsimp only
  rw [Uleb128.read_write hdirect]
  dsimp only
  rw [Uleb128.read_write hvirtual]
  dsimp only [Dex.ClassData.skipPairs]
  rw [hfirst]
  dsimp only
  rw [hsecond]
  rfl

theorem readClassData_eq {file : Bytes} {offset : Nat} (hfile : file.length < 4294967296)
    (h : Placed file (classDataBlock codeOffset c) offset) :
    Dex.readClassData file offset = .ok (classData codeOffset c) := by
  unfold classDataBlock at h
  unfold classData
  split at h
  · rename_i hempty
    obtain rfl : offset = 0 := h
    rw [if_pos hempty]
    rfl
  · rename_i hmethods
    obtain ⟨hpos, hblock⟩ := h
    have hwrite := Uleb128.length_write_pos 0
    have hle := hblock.length_le (by simp only [List.length_append]; omega)
    have hdirect := length_le_methodRun codeOffset 0 (sortMethods c.direct)
    have hvirtual := length_le_methodRun codeOffset 0 (sortMethods c.virtual)
    rw [length_sortMethods] at hdirect hvirtual
    simp only [List.length_append] at hle
    obtain ⟨after, hlocate⟩ := locate_of_holdsAt hblock
      (by simp only [List.length_append]; omega) .classData
    unfold Dex.readClassData
    rw [if_neg (by omega), if_neg hmethods, hlocate]
    dsimp only [Bind.bind, Except.bind]
    rw [read_classDataBlock hoffset hshort (by omega) (by omega)]
    rfl

end

/-! ## Which code counts -/

theorem length_pos_of_mem_typeListBlock {types : List Nat} {block : Bytes}
    (h : block ∈ typeListBlock types) : 0 < block.length := by
  unfold typeListBlock at h
  split at h
  · simp at h
  · obtain rfl : _ = block := Option.some.inj h
    simp only [List.length_append, Bytes.length_le32]
    omega

theorem length_pos_of_mem_classDataBlock {codeOffset : Nat → Nat} {c : Class} {block : Bytes}
    (h : block ∈ classDataBlock codeOffset c) : 0 < block.length := by
  unfold classDataBlock at h
  split at h
  · simp at h
  · obtain rfl : _ = block := Option.some.inj h
    have hpos := Uleb128.length_write_pos 0
    simp only [List.length_append]
    omega

/-- A class as it is read back. -/
def classDef (codeOffset : Nat → Nat) (c : Class) : Dex.ClassDef where
  type := c.type
  flags := Dex.ClassFlags.truncate c.flags
  superclass := c.superclass
  interfaces := c.interfaces
  data := classData codeOffset c

section

variable {file : Bytes} (hfile : file.length < 4294967296)

include hfile

theorem offset_lt {block? : Option Bytes} (hblock : ∀ block ∈ block?, 0 < block.length)
    {offset : Nat} (h : Placed file block? offset) : offset < 4294967296 := by
  cases block? with
  | none =>
    obtain rfl : offset = 0 := h
    decide
  | some block =>
    have hle := h.2.length_le (hblock block rfl)
    omega

theorem readClass_eq {c : Class} (htype : c.type < 65536) (hflags : c.flags < 4294967296)
    (hsuper : ∀ s ∈ c.superclass, s < 65536) (hinterfaces : ∀ i ∈ c.interfaces, i < 65536)
    (hmethods : ∀ m ∈ c.direct ++ c.virtual, m.index < 4294967296 ∧ m.flags < 4294967296)
    {codeOffset : Nat → Nat} (hcode : ∀ index, codeOffset index < 4294967296) {i d : Nat}
    (hi : Placed file (typeListBlock c.interfaces) i)
    (hd : Placed file (classDataBlock codeOffset c) d) :
    Dex.readClass file (classRecord c i d) = .ok (classDef codeOffset c) := by
  have hishort := offset_lt hfile (fun _ => length_pos_of_mem_typeListBlock) hi
  have hdshort := offset_lt hfile (fun _ => length_pos_of_mem_classDataBlock) hd
  have h0 : Bytes.u32At (classRecord c i d) 0 = c.type := by
    simp only [classRecord, List.append_assoc, Bytes.u32At_le32]
    exact Nat.mod_eq_of_lt (by omega)
  have h4 : Bytes.u32At (classRecord c i d) 4 = c.flags := by
    simp only [classRecord, List.append_assoc, Bytes.u32At_le32_add, Bytes.u32At_le32]
    exact Nat.mod_eq_of_lt hflags
  have h12 : Bytes.u32At (classRecord c i d) 12 = i := by
    simp only [classRecord, List.append_assoc, Bytes.u32At_le32_add, Bytes.u32At_le32]
    exact Nat.mod_eq_of_lt hishort
  have h24 : Bytes.u32At (classRecord c i d) 24 = d := by
    simp only [classRecord, List.append_assoc, Bytes.u32At_le32_add, Bytes.u32At_le32]
    exact Nat.mod_eq_of_lt hdshort
  have h8 : (if Bytes.u32At (classRecord c i d) 8 = Dex.noIndex then none
      else some (Bytes.u32At (classRecord c i d) 8)) = c.superclass := by
    simp only [classRecord, List.append_assoc, Bytes.u32At_le32_add, Bytes.u32At_le32]
    cases hs : c.superclass with
    | none => rfl
    | some s =>
      have hshort : s < 65536 := hsuper s hs
      have hvalue : (some s).getD Dex.noIndex % 4294967296 = s := Nat.mod_eq_of_lt (by
        show s < 4294967296
        omega)
      have hne : s ≠ Dex.noIndex := by
        simp only [Dex.noIndex]
        omega
      rw [hvalue, if_neg hne]
  unfold Dex.readClass
  rw [h24, h12, readClassData_eq hcode hmethods hfile hd]
  dsimp only [Bind.bind, Except.bind]
  rw [typeList_eq hfile hinterfaces hi]
  dsimp only
  rw [h0, h4, h8]
  rfl

end

end PermissionAudit.Assembler
