import Mathlib.Algebra.BigOperators.Intervals
import Mathlib.Algebra.BigOperators.Ring.Finset
import Mathlib.Algebra.Order.Ring.Int
import PermissionAudit.Proofs.Dex.ClassData

/-!
Groups of seven bits by position. A number ends at the first byte below `0x80`; where
that byte is decides whether there is a number, how many bytes it takes and what it is.
What is written ends by itself, so that it is read back whatever comes after it.
-/

namespace PermissionAudit.Uleb128

variable {b : Bytes} {k : Nat}

/-- The byte at position `k` is the first one below `0x80`. -/
structure EndsAt (b : Bytes) (k : Nat) : Prop where
  last : ∃ x, b[k]? = some x ∧ x.toNat < 0x80
  before : ∀ x ∈ b.take k, 0x80 ≤ x.toNat

theorem continues_iff {x : UInt8} : continues x = true ↔ 0x80 ≤ x.toNat := decide_eq_true_iff

theorem continues_eq_false_iff {x : UInt8} : continues x = false ↔ x.toNat < 0x80 := by
  rw [← Bool.not_eq_true, continues_iff, Nat.not_le]

/-! ## The number -/

/-- The low seven bits of each byte, each group with its weight. -/
def weighted (b : Bytes) (count : Nat) : Nat :=
  ∑ i ∈ Finset.range count, (Bytes.byteAt b i &&& 0x7f) * 2 ^ (7 * i)

theorem weighted_cons (x : UInt8) (b : Bytes) (count : Nat) :
    weighted (x :: b) (count + 1) = x.toNat % 128 + 128 * weighted b count := by
  have low : Bytes.byteAt (x :: b) 0 &&& 0x7f = x.toNat % 128 :=
    Nat.and_two_pow_sub_one_eq_mod x.toNat 7
  have high (i : Nat) : (Bytes.byteAt (x :: b) (i + 1) &&& 0x7f) * 2 ^ (7 * (i + 1)) =
      128 * ((Bytes.byteAt b i &&& 0x7f) * 2 ^ (7 * i)) := by
    have shift : Bytes.byteAt (x :: b) (i + 1) = Bytes.byteAt b i := rfl
    rw [shift, Nat.mul_add, Nat.pow_add, ← Nat.mul_assoc]
    exact Nat.mul_comm _ 128
  rw [weighted, Finset.sum_range_succ', Nat.mul_zero, Nat.pow_zero, Nat.mul_one, low,
    Finset.sum_congr rfl fun i _ => high i, ← Finset.mul_sum, Nat.add_comm, weighted]

/-- Reducing after each group comes to reducing the sum. -/
theorem value_eq_weighted (groups : Bytes) :
    value groups = weighted groups groups.length % 2 ^ 32 := by
  induction groups with
  | nil => rfl
  | cons x rest ih =>
    rw [value, ih, List.length_cons, weighted_cons]
    omega

theorem weighted_take {count : Nat} : weighted (b.take count) count = weighted b count := by
  refine Finset.sum_congr rfl fun i hi => ?_
  have within : i < count := Finset.mem_range.mp hi
  rw [Bytes.byteAt, List.getElem?_take, if_pos within, Bytes.byteAt]

/-! ## The three answers -/

/-- Bytes up to a last group of at most five are read, and the others are left. -/
theorem read_of_endsAt (h : EndsAt b k) (hk : k < maxGroups) :
    read b = .ok (weighted b (k + 1) % 2 ^ 32, b.drop (k + 1)) := by
  obtain ⟨x, hx, small⟩ := h.last
  obtain ⟨inside, rfl⟩ := List.getElem?_eq_some_iff.mp hx
  have groups : b.take (k + 1) = b.take k ++ [b[k]] := by
    rw [List.take_add_one, hx, Option.toList_some]
  have length : (b.take (k + 1)).length = k + 1 := by
    rw [List.length_take]
    omega
  have spelled : Spells (b.take (k + 1)) (maxGroups - 1) (value (b.take (k + 1))) := by
    refine ⟨b.take k, b[k], groups, ?_, ?_, continues_eq_false_iff.mpr small,
      (Nat.mod_eq_of_lt (value_lt _)).symm⟩
    · exact (List.length_take_le _ _).trans (Nat.le_pred_of_lt hk)
    · intro group hgroup
      exact continues_iff.mpr (h.before group hgroup)
  have answer := read_append spelled (b.drop (k + 1))
  have reduced : value (b.take (k + 1)) % 4294967296 = weighted b (k + 1) % 2 ^ 32 := by
    rw [value_eq_weighted, length, weighted_take]
    exact Nat.mod_mod _ _
  rw [List.take_append_drop, reduced] at answer
  exact answer

/-- Where no group among the first five ends a number, the length tells the fault. -/
theorem read_of_continues (h : ∀ x ∈ b.take maxGroups, 0x80 ≤ x.toNat) :
    read b = .error (if maxGroups ≤ b.length then .verify else .endOfInput) := by
  have leading : (b.take maxGroups).takeWhile continues = b.take maxGroups :=
    List.takeWhile_eq_self_iff.mpr fun x hx => continues_iff.mpr (h x hx)
  simp only [read, leading, List.length_take]
  by_cases long : maxGroups ≤ b.length
  · rw [if_pos (Nat.min_eq_left long), if_pos long]
  · have short : min maxGroups b.length = b.length := Nat.min_eq_right (by omega)
    rw [short, if_neg (by omega), if_neg long, List.drop_length]

/-- Among bytes below `0x80` one is the first. -/
theorem exists_endsAt (h : ∃ x ∈ b.take maxGroups, x.toNat < 0x80) :
    ∃ k < maxGroups, EndsAt b k := by
  have position {count : Nat} {x : UInt8} (hx : x ∈ b.take count) :
      ∃ i < count, b[i]? = some x := by
    obtain ⟨i, hi⟩ := List.mem_iff_getElem?.mp hx
    rw [List.getElem?_take, Option.ite_none_right_eq_some] at hi
    exact ⟨i, hi⟩
  obtain ⟨x, hx, small⟩ := h
  obtain ⟨j, hj, hat⟩ := position hx
  -- the first such position is not behind the one that is known
  have known : ∃ i, ∃ x : UInt8, b[i]? = some x ∧ x.toNat < 0x80 := ⟨j, x, hat, small⟩
  classical
  refine ⟨Nat.find known, ?_, Nat.find_spec known, ?_⟩
  · exact Nat.lt_of_le_of_lt (Nat.find_min' known ⟨x, hat, small⟩) hj
  · intro y hy
    obtain ⟨i, hi, hyat⟩ := position hy
    by_contra below
    exact Nat.find_min known hi ⟨y, hyat, Nat.lt_of_not_le below⟩

theorem exists_read_iff :
    (∃ n rest, read b = .ok (n, rest)) ↔ ∃ x ∈ b.take maxGroups, x.toNat < 0x80 := by
  constructor
  · rintro ⟨n, rest, hread⟩
    by_contra none_below
    have goes_on : ∀ x ∈ b.take maxGroups, 0x80 ≤ x.toNat := fun x hx =>
      Nat.le_of_not_lt fun below => none_below ⟨x, hx, below⟩
    rw [read_of_continues goes_on] at hread
    cases hread
  · intro h
    obtain ⟨k, hk, ends⟩ := exists_endsAt h
    exact ⟨_, _, read_of_endsAt ends hk⟩

theorem read_eq_error_iff {fault : ReadFault} :
    read b = .error fault ↔ (∀ x ∈ b.take maxGroups, 0x80 ≤ x.toNat) ∧
      fault = if maxGroups ≤ b.length then .verify else .endOfInput := by
  constructor
  · intro hread
    have goes_on : ∀ x ∈ b.take maxGroups, 0x80 ≤ x.toNat := by
      intro x hx
      by_contra below
      obtain ⟨n, rest, hok⟩ := exists_read_iff.mpr ⟨x, hx, Nat.lt_of_not_le below⟩
      rw [hread] at hok
      cases hok
    rw [read_of_continues goes_on] at hread
    exact ⟨goes_on, (Except.error.inj hread).symm⟩
  · rintro ⟨goes_on, rfl⟩
    exact read_of_continues goes_on

theorem read_eq_verify_iff :
    read b = .error .verify ↔
      maxGroups ≤ b.length ∧ ∀ x ∈ b.take maxGroups, 0x80 ≤ x.toNat := by
  rw [read_eq_error_iff, and_comm]
  refine and_congr_left fun _ => ?_
  by_cases long : maxGroups ≤ b.length
  · simp [long]
  · simp [long]

theorem read_eq_endOfInput_iff :
    read b = .error .endOfInput ↔ b.length < maxGroups ∧ ∀ x ∈ b, 0x80 ≤ x.toNat := by
  rw [read_eq_error_iff, and_comm]
  by_cases long : maxGroups ≤ b.length
  · simp [long]
  · have short : b.length < maxGroups := Nat.lt_of_not_le long
    simp [long, short, List.take_of_length_le (Nat.le_of_lt short)]

/-! ## Writing -/

theorem length_writeGroups_le (more n : Nat) : (writeGroups more n).length ≤ more + 1 := by
  induction more generalizing n with
  | zero => exact Nat.le_refl _
  | succ more ih =>
    unfold writeGroups
    split
    · exact Nat.succ_le_succ (Nat.zero_le _)
    · exact Nat.succ_le_succ (ih _)

/-- **Numbers and their groups.** Each number of 32 bits is written in one to five bytes and is
read back from these, whatever comes after. Of any bytes a number is read exactly if one of the
first five is below `0x80`: it takes the bytes up to the first such, and is the sum of their low
seven bits with their weights, without the bits past 32. Else five bytes that all go on are
refused, and fewer are too short. -/
theorem read_write_exact :
    (∀ (v : UInt32) (rest : Bytes), read (write v.toNat ++ rest) = .ok (v.toNat, rest) ∧
      1 ≤ (write v.toNat).length ∧ (write v.toNat).length ≤ 5) ∧
    ∀ b : Bytes,
      ((∃ n rest, read b = .ok (n, rest)) ↔ ∃ x ∈ b.take 5, x.toNat < 0x80) ∧
      (∀ k < 5, EndsAt b k → read b =
        .ok ((∑ i ∈ Finset.range (k + 1), (Bytes.byteAt b i &&& 0x7f) * 2 ^ (7 * i)) % 2 ^ 32,
          b.drop (k + 1))) ∧
      (read b = .error .verify ↔ 5 ≤ b.length ∧ ∀ x ∈ b.take 5, 0x80 ≤ x.toNat) ∧
      (read b = .error .endOfInput ↔ b.length < 5 ∧ ∀ x ∈ b, 0x80 ≤ x.toNat) := by
  refine ⟨fun v rest => ⟨read_write v.toNat_lt rest, length_write_pos _, ?_⟩, fun b => ?_⟩
  · exact length_writeGroups_le _ _
  · exact ⟨exists_read_iff, fun k hk ends => read_of_endsAt ends hk, read_eq_verify_iff,
      read_eq_endOfInput_iff⟩

/-- Of the seven bits of a fifth group the upper three are lost, and a byte after it is left. -/
theorem read_five_ones :
    EndsAt [0xff, 0xff, 0xff, 0xff, 0x7f, 0x01] 4 ∧
      read [0xff, 0xff, 0xff, 0xff, 0x7f, 0x01] = .ok (0xffffffff, [0x01]) := by
  have ends : EndsAt [0xff, 0xff, 0xff, 0xff, 0x7f, 0x01] 4 :=
    ⟨⟨0x7f, rfl, by decide⟩, by simp⟩
  exact ⟨ends, (read_write_exact.2 _).2.1 4 (by decide) ends⟩

end PermissionAudit.Uleb128
