import PermissionAudit.Dex.File
import PermissionAudit.Proofs.Sequence.Checked

/-!
How many bytes the parts of a file take at least. Parts may overlap, so there is
one bound for the class table and one for the methods of each class.
-/

namespace PermissionAudit

theorem Uleb128.length_lt_of_read {b rest : Bytes} {n : Nat} (h : read b = .ok (n, rest)) :
    rest.length < b.length := by
  rw [read] at h
  split at h
  · cases h
  · split at h
    · cases h
    · rename_i hd
      obtain ⟨-, rfl⟩ := Prod.mk.inj (Except.ok.inj h)
      have := congrArg List.length hd
      rw [List.length_drop, List.length_cons] at this
      omega

theorem Bytes.length_chunks (size count : Nat) (b : Bytes) :
    (chunks size count b).length = count := by
  induction count generalizing b with
  | zero => rfl
  | succ count ih => rw [chunks, List.length_cons, ih]

namespace Dex

theorem ClassData.length_le_of_skipPairs {count : Nat} {b rest : Bytes}
    (h : skipPairs count b = .ok rest) : rest.length ≤ b.length := by
  induction count generalizing b with
  | zero => exact Nat.le_of_eq (congrArg List.length (Except.ok.inj h).symm)
  | succ count ih =>
    simp only [skipPairs, bind_eq_ok_iff, Prod.exists] at h
    obtain ⟨_, b₁, h₁, _, b₂, h₂, h⟩ := h
    have := Uleb128.length_lt_of_read h₁
    have := Uleb128.length_lt_of_read h₂
    have := ih h
    omega

/-- A method takes three numbers. -/
theorem ClassData.length_le_of_readMethods {count previous : Nat} {b rest : Bytes}
    {methods : List EncodedMethod} (h : readMethods count previous b = .ok (methods, rest)) :
    3 * methods.length + rest.length ≤ b.length := by
  induction count generalizing previous b methods with
  | zero =>
    obtain ⟨rfl, rfl⟩ := Prod.mk.inj (Except.ok.inj h)
    simp
  | succ count ih =>
    simp only [readMethods, bind_eq_ok_iff, Prod.exists] at h
    obtain ⟨_, b₁, h₁, _, b₂, h₂, _, b₃, h₃, later, b₄, h₄, h⟩ := h
    obtain ⟨rfl, rfl⟩ := Prod.mk.inj (Except.ok.inj h)
    have := Uleb128.length_lt_of_read h₁
    have := Uleb128.length_lt_of_read h₂
    have := Uleb128.length_lt_of_read h₃
    have := ih h₄
    rw [List.length_cons]
    omega

theorem ClassData.length_methods_le {b : Bytes} {data : ClassData} (h : read b = .ok data) :
    3 * data.methods.length ≤ b.length := by
  simp only [read, bind_eq_ok_iff, Prod.exists] at h
  obtain ⟨_, b₁, h₁, _, b₂, h₂, _, b₃, h₃, _, b₄, h₄, b₅, h₅, b₆, h₆, direct, b₇, h₇, virtual,
    b₈, h₈, h⟩ := h
  obtain rfl := Except.ok.inj h
  have := Uleb128.length_lt_of_read h₁
  have := Uleb128.length_lt_of_read h₂
  have := Uleb128.length_lt_of_read h₃
  have := Uleb128.length_lt_of_read h₄
  have := length_le_of_skipPairs h₅
  have := length_le_of_skipPairs h₆
  have := length_le_of_readMethods h₇
  have := length_le_of_readMethods h₈
  show 3 * (direct ++ virtual).length ≤ b.length
  rw [List.length_append]
  omega

theorem length_le_of_locate {b rest : Bytes} {offset : Nat} {item : Item}
    (h : locate b offset item = .ok rest) : rest.length ≤ b.length := by
  rw [locate] at h
  split at h
  · cases h
  · rw [← Except.ok.inj h, List.length_drop]
    exact Nat.sub_le _ _

theorem length_methods_of_readClass {b record : Bytes} {c : ClassDef}
    (h : readClass b record = .ok c) : 3 * c.methods.length ≤ b.length := by
  simp only [readClass, bind_eq_ok_iff] at h
  obtain ⟨data, hd, interfaces, -, h⟩ := h
  obtain rfl := Except.ok.inj h
  rw [readClassData] at hd
  split at hd
  · obtain rfl := Except.ok.inj hd
    exact Nat.zero_le _
  · rw [bind_eq_ok_iff] at hd
    obtain ⟨rest, hl, hd⟩ := hd
    split at hd
    next item hi =>
      obtain rfl := Except.ok.inj hd
      exact Nat.le_trans (ClassData.length_methods_le hi) (length_le_of_locate hl)
    next => cases hd

theorem length_le_of_tableRecords {b : Bytes} {table : Table} {extent : Extent}
    {recordSize : Nat} {records : List Bytes}
    (h : tableRecords b table extent recordSize = .ok records) :
    records.length * recordSize ≤ b.length := by
  rw [tableRecords] at h
  split at h
  · obtain rfl := Except.ok.inj h
    simp
  · split at h
    · obtain rfl := Except.ok.inj h
      rw [Bytes.length_chunks]
      omega
    · cases h

/-- **Extent of the classes**: what the class table and the methods of a class take. -/
theorem extent_classes {b : Bytes} {dex : Dex} (h : read b = .ok dex) :
    32 * dex.classes.length ≤ b.length ∧ ∀ c ∈ dex.classes, 3 * c.methods.length ≤ b.length := by
  simp only [read, bind_eq_ok_iff] at h
  obtain ⟨header, -, h⟩ := h
  split at h
  · cases h
  -- of all tables only that of the classes is needed
  · simp only [bind_eq_ok_iff, mapM_eq_ok_iff] at h
    obtain ⟨_, -, _, -, _, -, _, -, _, -, _, -, records, hr, classes, hc, h⟩ := h
    obtain rfl := Except.ok.inj h
    refine ⟨?_, fun c hm => ?_⟩
    · have := length_le_of_tableRecords hr
      have := hc.length_eq
      simp only
      omega
    · obtain ⟨i, hi, rfl⟩ := List.getElem_of_mem hm
      exact length_methods_of_readClass (hc.get (hc.length_eq ▸ hi) hi)

end Dex

end PermissionAudit
