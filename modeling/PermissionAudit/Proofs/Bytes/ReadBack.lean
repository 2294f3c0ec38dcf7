import Mathlib.Algebra.Order.Ring.Int
import PermissionAudit.Bytes.Adler32
import PermissionAudit.Bytes.Sha1
import PermissionAudit.Bytes.Uleb128

/-!
Numbers and records are read back as they were written, whatever bytes come
after them. A number that does not fit its field is read back without its high
bits.
-/

namespace PermissionAudit

namespace Bytes

/-! ## Numbers at a position -/

@[simp] theorem length_le16 (n : Nat) : (le16 n).length = 2 := rfl

@[simp] theorem length_le32 (n : Nat) : (le32 n).length = 4 := rfl

theorem byteAt_append (xs rest : Bytes) (i : Nat) :
    byteAt (xs ++ rest) (xs.length + i) = byteAt rest i := by
  unfold byteAt
  rw [List.getElem?_append_right (Nat.le_add_right _ _), Nat.add_sub_cancel_left]

theorem u16At_append (xs rest : Bytes) (i : Nat) :
    u16At (xs ++ rest) (xs.length + i) = u16At rest i := by
  unfold u16At
  rw [byteAt_append, Nat.add_assoc, byteAt_append]

theorem u32At_append (xs rest : Bytes) (i : Nat) :
    u32At (xs ++ rest) (xs.length + i) = u32At rest i := by
  unfold u32At
  rw [u16At_append, Nat.add_assoc, u16At_append]

theorem byteAt_append_left {front : Bytes} {i : Nat} (tail : Bytes) (h : i < front.length) :
    byteAt (front ++ tail) i = byteAt front i := by
  rw [byteAt, byteAt, List.getElem?_append_left h]

theorem u16At_append_left {front : Bytes} {i : Nat} (tail : Bytes) (h : i + 1 < front.length) :
    u16At (front ++ tail) i = u16At front i := by
  rw [u16At, u16At, byteAt_append_left tail (by omega), byteAt_append_left tail h]

theorem u32At_append_left {front : Bytes} {i : Nat} (tail : Bytes) (h : i + 3 < front.length) :
    u32At (front ++ tail) i = u32At front i := by
  rw [u32At, u32At, u16At_append_left tail (by omega), u16At_append_left tail h]

@[simp] theorem u32At_le32_add (n : Nat) (rest : Bytes) (i : Nat) :
    u32At (le32 n ++ rest) (i + 4) = u32At rest i := by
  rw [Nat.add_comm]
  exact u32At_append (le32 n) rest i

@[simp] theorem u16At_le16 (n : Nat) (rest : Bytes) : u16At (le16 n ++ rest) 0 = n % 65536 := by
  show (UInt8.ofNat n).toNat + 256 * (UInt8.ofNat (n / 256)).toNat = n % 65536
  rw [UInt8.toNat_ofNat', UInt8.toNat_ofNat']
  omega

@[simp] theorem u32At_le32 (n : Nat) (rest : Bytes) :
    u32At (le32 n ++ rest) 0 = n % 4294967296 := by
  have low : u16At (le32 n ++ rest) 0 = n % 65536 := u16At_le16 n _
  have high : u16At (le32 n ++ rest) 2 = n / 65536 % 65536 := u16At_le16 (n / 65536) rest
  show u16At (le32 n ++ rest) 0 + 65536 * u16At (le32 n ++ rest) 2 = _
  rw [low, high]
  omega

theorem units_le16 (n : Nat) (rest : Bytes) :
    units (le16 n ++ rest) = UInt16.ofNat n :: units rest := by
  show ((UInt8.ofNat n).toUInt16 + 256 * (UInt8.ofNat (n / 256)).toUInt16) :: units rest = _
  congr 1
  apply UInt16.toNat_inj.mp
  simp only [UInt16.toNat_add, UInt16.toNat_mul, UInt8.toNat_toUInt16, UInt8.toNat_ofNat',
    UInt16.toNat_ofNat', UInt16.reduceToNat]
  omega

theorem units_flatMap_le16 (ns : List Nat) : units (ns.flatMap le16) = ns.map UInt16.ofNat := by
  induction ns with
  | nil => rfl
  | cons n rest ih => rw [List.flatMap_cons, units_le16, ih, List.map_cons]

theorem length_flatMap_le16 (ns : List Nat) : (ns.flatMap le16).length = 2 * ns.length := by
  induction ns with
  | nil => rfl
  | cons n rest ih =>
    rw [List.flatMap_cons, List.length_append, length_le16, ih, List.length_cons]
    omega

/-- Records of one size are told apart by their size. -/
theorem chunks_flatten {size : Nat} {records : List Bytes} (h : ∀ r ∈ records, r.length = size)
    (rest : Bytes) : chunks size records.length (records.flatten ++ rest) = records := by
  induction records with
  | nil => rfl
  | cons r records ih =>
    have hr : r.length = size := h r List.mem_cons_self
    have later := ih fun r hr => h r (List.mem_cons_of_mem _ hr)
    rw [List.flatten_cons, List.append_assoc]
    show List.take size _ :: chunks size records.length (List.drop size _) = _
    rw [← hr, List.take_left, List.drop_left, hr, later]

/-! ## Blocks at a position -/

/-- The bytes from position `i` on start with a block. -/
def HoldsAt (b : Bytes) (i : Nat) (block : Bytes) : Prop := block <+: b.drop i

namespace HoldsAt

variable {b block rest : Bytes} {i n : Nat}

theorem of_append (before block after : Bytes) :
    HoldsAt (before ++ block ++ after) before.length block := by
  unfold HoldsAt
  rw [List.append_assoc, List.drop_left]
  exact List.prefix_append block after

theorem left (h : HoldsAt b i (block ++ rest)) : HoldsAt b i block :=
  (List.prefix_append block rest).trans h

theorem right (h : HoldsAt b i (block ++ rest)) : HoldsAt b (i + block.length) rest := by
  obtain ⟨after, hafter⟩ := h
  unfold HoldsAt
  rw [← List.drop_drop, ← hafter, List.append_assoc, List.drop_left]
  exact List.prefix_append rest after

theorem length_le (h : HoldsAt b i block) (hpos : 0 < block.length) :
    i + block.length ≤ b.length := by
  have hle := List.IsPrefix.length_le h
  rw [List.length_drop] at hle
  omega

theorem u16At_add (i k : Nat) : u16At (b.drop i) k = u16At b (i + k) := by
  simp only [u16At, byteAt, List.getElem?_drop, Nat.add_assoc]

theorem u32At_add (i k : Nat) : u32At (b.drop i) k = u32At b (i + k) := by
  simp only [u32At, u16At_add, Nat.add_assoc]

theorem u32At_eq (h : HoldsAt b i (le32 n)) : u32At b i = n % 4294967296 := by
  obtain ⟨after, hafter⟩ := h
  rw [← Nat.add_zero i, ← u32At_add, ← hafter, u32At_le32]

end HoldsAt

end Bytes

/-! ## Groups of seven bits -/

namespace Uleb128

/-- Groups that denote `n`: every one but the last continues, and these are at most `more`. -/
def Spells (b : Bytes) (more n : Nat) : Prop :=
  ∃ leading last, b = leading ++ [last] ∧ leading.length ≤ more ∧
    (∀ group ∈ leading, continues group = true) ∧ continues last = false ∧
    value b = n % 4294967296

theorem Spells.single {n : Nat} (h : n < 128) (more : Nat) : Spells [UInt8.ofNat n] more n := by
  have hn : (UInt8.ofNat n).toNat = n := by
    rw [UInt8.toNat_ofNat']
    omega
  refine ⟨[], UInt8.ofNat n, rfl, Nat.zero_le _, by simp, ?_, ?_⟩
  · rw [continues, hn]
    exact decide_eq_false (by omega)
  · show ((UInt8.ofNat n).toNat % 128 + 128 * 0) % 4294967296 = n % 4294967296
    rw [hn]
    omega

theorem Spells.cons {b : Bytes} {more n : Nat} (h : Spells b more (n / 128)) :
    Spells (UInt8.ofNat (n % 128 + 128) :: b) (more + 1) n := by
  obtain ⟨leading, last, rfl, hlength, hleading, hlast, hvalue⟩ := h
  have hgroup : (UInt8.ofNat (n % 128 + 128)).toNat = n % 128 + 128 := by
    rw [UInt8.toNat_ofNat']
    omega
  refine ⟨UInt8.ofNat (n % 128 + 128) :: leading, last, rfl, Nat.succ_le_succ hlength, ?_, hlast,
    ?_⟩
  · intro group hmem
    rcases List.mem_cons.mp hmem with rfl | hmem
    · rw [continues, hgroup]
      exact decide_eq_true (by omega)
    · exact hleading group hmem
  · rw [value, hvalue, hgroup]
    omega

theorem spells_writeGroups {more n : Nat} (h : n < 128 * 128 ^ more) :
    Spells (writeGroups more n) more n := by
  induction more generalizing n with
  | zero => exact Spells.single (by omega) 0
  | succ more ih =>
    unfold writeGroups
    split
    · exact Spells.single ‹_› _
    · apply Spells.cons
      apply ih
      rw [Nat.div_lt_iff_lt_mul (by decide)]
      rw [Nat.pow_succ] at h
      omega

theorem read_append {b : Bytes} {n : Nat} (h : Spells b (maxGroups - 1) n) (rest : Bytes) :
    read (b ++ rest) = .ok (n % 4294967296, rest) := by
  obtain ⟨leading, last, rfl, hlength, hleading, hlast, hvalue⟩ := h
  have hshort : leading.length < maxGroups := Nat.lt_of_le_pred (by decide) hlength
  have hlead : (List.take maxGroups (leading ++ last :: rest)).takeWhile continues = leading := by
    obtain ⟨k, hk⟩ : ∃ k, maxGroups - leading.length = k + 1 :=
      Nat.exists_eq_succ_of_ne_zero (by omega)
    rw [List.take_append, List.take_of_length_le (Nat.le_of_lt hshort), hk, List.take_succ_cons,
      List.takeWhile_append_of_pos hleading]
    simp [hlast]
  rw [List.append_assoc, List.singleton_append]
  simp only [read, hlead, if_neg (Nat.ne_of_lt hshort), List.drop_left, hvalue]

/-- Reading undoes writing, for numbers of 32 bits. -/
theorem read_write {n : Nat} (h : n < 4294967296) (rest : Bytes) :
    read (write n ++ rest) = .ok (n, rest) := by
  have groups : Spells (write n) (maxGroups - 1) n :=
    spells_writeGroups (Nat.lt_of_lt_of_le h (by decide))
  rw [read_append groups, Nat.mod_eq_of_lt h]

theorem length_write_pos (n : Nat) : 0 < (write n).length := by
  show 0 < (writeGroups (3 + 1) n).length
  unfold writeGroups
  split <;> exact Nat.succ_pos _

end Uleb128

/-! ## Digests -/

theorem Sha1.length_digest (b : Bytes) : (Sha1.digest b).length = 20 := by
  simp [Sha1.digest, Sha1.bigEndian]

/-- Both running sums stay reduced. -/
theorem Adler32.sums_lt {b : Bytes} {sums : Nat × Nat} (h₁ : sums.1 < modulus)
    (h₂ : sums.2 < modulus) :
    (b.foldl step sums).1 < modulus ∧ (b.foldl step sums).2 < modulus := by
  induction b generalizing sums with
  | nil => exact ⟨h₁, h₂⟩
  | cons x rest ih => exact ih (Nat.mod_lt _ (by decide)) (Nat.mod_lt _ (by decide))

theorem Adler32.checksum_lt (b : Bytes) : checksum b < 4294967296 := by
  obtain ⟨h₁, h₂⟩ := @sums_lt b (1, 0) (by decide) (by decide)
  show (b.foldl step (1, 0)).1 + 65536 * (b.foldl step (1, 0)).2 < _
  simp only [modulus] at h₁ h₂
  omega

end PermissionAudit
