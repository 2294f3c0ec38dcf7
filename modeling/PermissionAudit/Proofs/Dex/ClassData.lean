import Mathlib.Algebra.Order.Ring.Int
import Mathlib.Data.List.TakeWhile
import PermissionAudit.Dex.ClassData
import PermissionAudit.Proofs.Bytes.ReadBack
import PermissionAudit.Proofs.Machine.File

/-!
Class data as numbers one after another. Bytes start with numbers if groups that
spell them stand at the front; reading is taking the first of them. Class data is
read from exactly the bytes that start with its numbers: four counts, two numbers
for each field, three for each method, whose index is the sum of the differences
up to it.
-/

namespace PermissionAudit

/-! ## Numbers at the front -/

namespace Uleb128

variable {b rest : Bytes} {n : Nat} {ns ms : List Nat}

/-- What is read was spelled by the groups in front of the rest. -/
theorem read_eq_ok_iff : read b = .ok (n, rest) ↔
    ∃ groups, b = groups ++ rest ∧ Spells groups (maxGroups - 1) n ∧ n < 4294967296 := by
  constructor
  · intro h
    have hn : n < 4294967296 := lt_of_read h
    rw [read] at h
    split at h
    · cases h
    · rename_i short
      split at h
      · cases h
      · rename_i last after hd
        obtain ⟨value_eq, rfl⟩ := Prod.mk.inj (Except.ok.inj h)
        have ends := Machine.not_continues_of_drop short hd
        generalize hl : (b.take maxGroups).takeWhile continues = leading at *
        have front : leading <+: b := by
          rw [← hl]
          exact (List.takeWhile_prefix _).trans (List.take_prefix _ _)
        have fits : leading.length ≤ maxGroups := by
          rw [← hl]
          exact (List.takeWhile_prefix _).length_le.trans (List.length_take_le _ _)
        refine ⟨leading ++ [last], ?_, ⟨leading, last, rfl, ?_, ?_, ends, ?_⟩, hn⟩
        · rw [List.append_assoc, List.singleton_append, ← hd]
          exact (List.prefix_iff_eq_append.mp front).symm
        · omega
        · intro group hg
          rw [← hl] at hg
          exact List.mem_takeWhile_imp hg
        · rw [value_eq, Nat.mod_eq_of_lt hn]
  · rintro ⟨groups, rfl, spelled, hn⟩
    rw [read_append spelled, Nat.mod_eq_of_lt hn]

/-- Groups that spell numbers of 32 bits, one after another. -/
inductive SpellsAll : Bytes → List Nat → Prop where
  | nil : SpellsAll [] []
  | cons {groups later : Bytes} {n : Nat} {ns : List Nat} :
    Spells groups (maxGroups - 1) n → n < 4294967296 → SpellsAll later ns →
      SpellsAll (groups ++ later) (n :: ns)

/-- The bytes start with the numbers, and the rest stands behind them. -/
def Starts (b : Bytes) (ns : List Nat) (rest : Bytes) : Prop :=
  ∃ front, b = front ++ rest ∧ SpellsAll front ns

theorem starts_nil_iff : Starts b [] rest ↔ b = rest := by
  constructor
  · rintro ⟨front, rfl, spelled⟩
    cases spelled
    rfl
  · rintro rfl
    exact ⟨[], rfl, .nil⟩

theorem starts_cons_iff :
    Starts b (n :: ns) rest ↔ ∃ mid, read b = .ok (n, mid) ∧ Starts mid ns rest := by
  constructor
  · rintro ⟨front, rfl, spelled⟩
    cases spelled with
    | cons first hn later =>
      refine ⟨_, read_eq_ok_iff.mpr ⟨_, List.append_assoc .., first, hn⟩, _, rfl, later⟩
  · rintro ⟨mid, first, front, rfl, later⟩
    obtain ⟨groups, rfl, spelled, hn⟩ := read_eq_ok_iff.mp first
    exact ⟨groups ++ front, (List.append_assoc ..).symm, .cons spelled hn later⟩

theorem starts_append_iff :
    Starts b (ns ++ ms) rest ↔ ∃ mid, Starts b ns mid ∧ Starts mid ms rest := by
  induction ns generalizing b with
  | nil => simp [starts_nil_iff]
  | cons n ns ih =>
    simp only [List.cons_append, starts_cons_iff, ih]
    constructor
    · rintro ⟨mid, first, last, later, behind⟩
      exact ⟨last, ⟨mid, first, later⟩, behind⟩
    · rintro ⟨last, ⟨mid, first, later⟩, behind⟩
      exact ⟨mid, first, last, later, behind⟩

/-- Numbers that are written one after another are read in that order. -/
theorem starts_write {ns : List Nat} (h : ∀ n ∈ ns, n < 4294967296) (rest : Bytes) :
    Starts (ns.flatMap write ++ rest) ns rest := by
  induction ns with
  | nil => exact starts_nil_iff.mpr rfl
  | cons n ns ih =>
    rw [List.flatMap_cons, List.append_assoc]
    exact starts_cons_iff.mpr ⟨_, read_write (h n List.mem_cons_self) _,
      ih fun m hm => h m (List.mem_cons_of_mem _ hm)⟩

end Uleb128

/-! ## Class data -/

namespace Dex.ClassData

open Uleb128 (Starts starts_nil_iff starts_cons_iff starts_append_iff)

/-- A method as it is written. -/
structure MethodEntry where
  /-- How far the index is past that of the method before. -/
  difference : Nat
  flags : Nat
  codeOffset : Nat

def MethodEntry.numbers (e : MethodEntry) : List Nat := [e.difference, e.flags, e.codeOffset]

/-- The methods of a list after an index; each one is found by all differences up to its own. -/
def methodsAfter (previous : Nat) (entries : List MethodEntry) : List EncodedMethod :=
  entries.mapIdx fun k e =>
    { index := previous + ((entries.take (k + 1)).map MethodEntry.difference).sum
      flags := MethodFlags.truncate e.flags
      codeOffset := if e.codeOffset = 0 then none else some e.codeOffset }

theorem methodsAfter_cons (previous : Nat) (e : MethodEntry) (later : List MethodEntry) :
    methodsAfter previous (e :: later) =
      ⟨previous + e.difference, MethodFlags.truncate e.flags,
        if e.codeOffset = 0 then none else some e.codeOffset⟩ ::
      methodsAfter (previous + e.difference) later := by
  simp [methodsAfter, List.mapIdx_cons, Nat.add_assoc]

variable {b rest : Bytes}

theorem skipPairs_eq_ok_iff {count : Nat} :
    skipPairs count b = .ok rest ↔ ∃ ns, ns.length = 2 * count ∧ Starts b ns rest := by
  induction count generalizing b with
  | zero =>
    rw [skipPairs]
    constructor
    · intro h
      exact ⟨[], rfl, starts_nil_iff.mpr (Except.ok.inj h)⟩
    · rintro ⟨ns, hl, starts⟩
      obtain rfl := List.eq_nil_of_length_eq_zero hl
      rw [starts_nil_iff.mp starts]
  | succ count ih =>
    simp only [skipPairs, bind_eq_ok_iff, Prod.exists, ih]
    constructor
    · rintro ⟨m, b₁, h₁, n, b₂, h₂, ns, hl, starts⟩
      refine ⟨m :: n :: ns, by simp [hl, Nat.mul_add], ?_⟩
      exact starts_cons_iff.mpr ⟨b₁, h₁, starts_cons_iff.mpr ⟨b₂, h₂, starts⟩⟩
    · rintro ⟨ns, hl, starts⟩
      obtain ⟨m, n, ns, rfl⟩ : ∃ m n later, ns = m :: n :: later := by
        rcases ns with _ | ⟨m, _ | ⟨n, later⟩⟩
        · simp at hl
        · simp at hl
          omega
        · exact ⟨m, n, later, rfl⟩
      obtain ⟨b₁, h₁, starts⟩ := starts_cons_iff.mp starts
      obtain ⟨b₂, h₂, starts⟩ := starts_cons_iff.mp starts
      refine ⟨m, b₁, h₁, n, b₂, h₂, ns, ?_, starts⟩
      simp only [List.length_cons] at hl
      omega

theorem readMethods_eq_ok_iff {count previous : Nat} {methods : List EncodedMethod} :
    readMethods count previous b = .ok (methods, rest) ↔
      ∃ entries, entries.length = count ∧ methods = methodsAfter previous entries ∧
        Starts b (entries.flatMap MethodEntry.numbers) rest := by
  induction count generalizing b previous methods with
  | zero =>
    rw [readMethods]
    constructor
    · intro h
      obtain ⟨rfl, rfl⟩ := Prod.mk.inj (Except.ok.inj h)
      exact ⟨[], rfl, rfl, starts_nil_iff.mpr rfl⟩
    · rintro ⟨entries, hl, rfl, starts⟩
      obtain rfl := List.eq_nil_of_length_eq_zero hl
      rw [starts_nil_iff.mp starts]
      rfl
  | succ count ih =>
    simp only [readMethods, bind_eq_ok_iff, Prod.exists]
    constructor
    · rintro ⟨difference, b₁, h₁, flags, b₂, h₂, offset, b₃, h₃, _, _, later, h⟩
      obtain ⟨rfl, rfl⟩ := Prod.mk.inj (Except.ok.inj h)
      obtain ⟨entries, hl, rfl, starts⟩ := ih.mp later
      refine ⟨⟨difference, flags, offset⟩ :: entries, by simp [hl], ?_, ?_⟩
      · rw [methodsAfter_cons]
      · exact starts_cons_iff.mpr ⟨b₁, h₁, starts_cons_iff.mpr ⟨b₂, h₂,
          starts_cons_iff.mpr ⟨b₃, h₃, starts⟩⟩⟩
    · rintro ⟨entries, hl, rfl, starts⟩
      cases entries with
      | nil => simp at hl
      | cons e entries =>
        obtain ⟨b₁, h₁, starts⟩ := starts_cons_iff.mp starts
        obtain ⟨b₂, h₂, starts⟩ := starts_cons_iff.mp starts
        obtain ⟨b₃, h₃, starts⟩ := starts_cons_iff.mp starts
        refine ⟨_, b₁, h₁, _, b₂, h₂, _, b₃, h₃, _, rest,
          ih.mpr ⟨entries, Nat.succ.inj hl, rfl, starts⟩, ?_⟩
        rw [methodsAfter_cons]
        rfl

/-- What the numbers of class data say: fields, two numbers for each, and methods. -/
structure Contents where
  staticFields : Nat
  instanceFields : Nat
  fields : List Nat
  direct : List MethodEntry
  virtual : List MethodEntry
  length_fields : fields.length = 2 * staticFields + 2 * instanceFields

/-- The counts, then fields and methods. -/
def Contents.numbers (c : Contents) : List Nat :=
  [c.staticFields, c.instanceFields, c.direct.length, c.virtual.length] ++ c.fields ++
    c.direct.flatMap MethodEntry.numbers ++ c.virtual.flatMap MethodEntry.numbers

/-- The methods; each list counts from zero. -/
def Contents.data (c : Contents) : ClassData := ⟨methodsAfter 0 c.direct, methodsAfter 0 c.virtual⟩

/-- **Class data**: it is read from the bytes that start with its numbers, and no others. -/
theorem read_eq_ok_iff {data : ClassData} :
    read b = .ok data ↔ ∃ c : Contents, c.data = data ∧ ∃ rest, Starts b c.numbers rest := by
  constructor
  · intro h
    simp only [read, bind_eq_ok_iff, Prod.exists, skipPairs_eq_ok_iff, readMethods_eq_ok_iff] at h
    obtain ⟨staticFields, b₁, h₁, instanceFields, b₂, h₂, _, b₃, h₃, _, b₄, h₄,
      b₅, ⟨statics, hs, h₅⟩, b₆, ⟨instances, hi, h₆⟩, _, b₇, ⟨direct, rfl, rfl, h₇⟩,
      _, b₈, ⟨virtual, rfl, rfl, h₈⟩, h⟩ := h
    obtain rfl := Except.ok.inj h
    refine ⟨⟨staticFields, instanceFields, statics ++ instances, direct, virtual, ?_⟩, rfl, b₈, ?_⟩
    · rw [List.length_append, hs, hi]
    · simp only [Contents.numbers, starts_append_iff, starts_cons_iff]
      exact ⟨b₇, ⟨b₆, ⟨b₄, ⟨b₁, h₁, b₂, h₂, b₃, h₃, b₄, h₄, starts_nil_iff.mpr rfl⟩, b₅, h₅, h₆⟩,
        h₇⟩, h₈⟩
  · rintro ⟨c, rfl, rest, starts⟩
    simp only [Contents.numbers, starts_append_iff, starts_cons_iff, starts_nil_iff] at starts
    obtain ⟨b₇, ⟨b₆, ⟨_, ⟨b₁, h₁, b₂, h₂, b₃, h₃, b₄, h₄, rfl⟩, fields⟩, h₇⟩, h₈⟩ := starts
    -- the fields are passed over in two goes
    have split_fields := c.fields.take_append_drop (2 * c.staticFields)
    rw [← split_fields, starts_append_iff] at fields
    obtain ⟨b₅, h₅, h₆⟩ := fields
    simp only [read, bind_eq_ok_iff, Prod.exists, skipPairs_eq_ok_iff, readMethods_eq_ok_iff]
    refine ⟨_, b₁, h₁, _, b₂, h₂, _, b₃, h₃, _, b₄, h₄, b₅, ⟨_, ?_, h₅⟩, b₆, ⟨_, ?_, h₆⟩,
      _, b₇, ⟨c.direct, rfl, rfl, h₇⟩, _, rest, ⟨c.virtual, rfl, rfl, h₈⟩, rfl⟩
    · rw [List.length_take, c.length_fields]
      omega
    · rw [List.length_drop, c.length_fields]
      omega

end Dex.ClassData

end PermissionAudit
