import PermissionAudit.Application.Input
import PermissionAudit.Proofs.Sequence.Checked
import PermissionAudit.Proofs.Text.Digits

/-!
What reading an archive gives. The entries with the name of a dex file are read and
sorted by their numbers, then by their names, and the files are parsed in that order.
The name without a number comes before all others but those with the number zero.
-/

namespace PermissionAudit

/-! ## Names -/

namespace DexEntry

/-- The number that the digits of a name stand for. -/
def Denotes (digits : List Char) (rank : Nat) : Prop :=
  digits = [] ∧ rank = 1 ∨
    (digits ≠ [] ∧ (∀ c ∈ digits, '0' ≤ c ∧ c ≤ '9') ∧ rank = Nat.ofDigitChars 10 digits 0) ∧
      rank < rankLimit

/-- The name of a dex file and its number: `classes`, digits and `.dex`, at the top of the archive
or in its `dex` directory. Without digits the number is one. -/
def IsNumbered (name : String) (rank : Nat) : Prop :=
  ∃ top digits : List Char, (top = [] ∨ top = "dex/".toList) ∧
    name.toList = top ++ ("classes".toList ++ digits ++ ".dex".toList) ∧
    Denotes digits rank

/-- The name without a number, at the top of the archive. -/
def primaryName : String := "classes.dex"

theorem between?_eq_some_iff {first last text middle : List Char} :
    between? first last text = some middle ↔ text = first ++ middle ++ last := by
  rw [between?, Option.ite_none_right_eq_some, List.isPrefixOf_iff_prefix,
    List.isSuffixOf_iff_suffix, Option.some.injEq]
  constructor
  · rintro ⟨⟨⟨rest, rfl⟩, hlast⟩, hmiddle⟩
    rw [List.drop_left] at hlast hmiddle
    obtain ⟨front, rfl⟩ := hlast
    have length : (first ++ (front ++ last)).length - first.length - last.length =
        front.length := by
      simp only [List.length_append]
      omega
    rw [length, List.take_left] at hmiddle
    rw [hmiddle, List.append_assoc]
  · rintro rfl
    have length : (first ++ middle ++ last).length - first.length - last.length =
        middle.length := by
      simp only [List.length_append]
      omega
    rw [length, List.append_assoc, List.drop_left, List.take_left]
    exact ⟨⟨List.prefix_append .., List.suffix_append ..⟩, rfl⟩

theorem denotes_iff {digits : List Char} {rank : Nat} :
    Denotes digits rank ↔
      (if digits.isEmpty then some 1 else
        Digits.readDecimal digits >>= fun n => if n < rankLimit then some n else none) =
          some rank := by
  cases digits with
  | nil => simp [Denotes, eq_comm]
  | cons c rest =>
    simp only [Denotes, ← Digits.readDecimal_eq_some_iff, List.isEmpty_cons, Bool.false_eq_true,
      if_false, Option.bind_eq_bind, Option.bind_eq_some_iff, Option.ite_none_right_eq_some,
      Option.some.injEq, reduceCtorEq, false_and, false_or]
    constructor
    · rintro ⟨hn, hlt⟩
      exact ⟨rank, hn, hlt, rfl⟩
    · rintro ⟨n, hn, hlt, rfl⟩
      exact ⟨hn, hlt⟩

/-- Numbers are read from the names of dex files, and from no others. -/
theorem rank?_eq_some_iff {name : String} {rank : Nat} :
    rank? name = some rank ↔ IsNumbered name rank := by
  have stem {text : List Char} :
      (between? "classes".toList ".dex".toList text >>= fun digits =>
        if digits.isEmpty then some 1 else
          Digits.readDecimal digits >>= fun n => if n < rankLimit then some n else none) =
          some rank ↔
        ∃ digits, text = "classes".toList ++ digits ++ ".dex".toList ∧ Denotes digits rank := by
    simp only [Option.bind_eq_bind, Option.bind_eq_some_iff, between?_eq_some_iff, denotes_iff]
  rw [rank?]
  refine Iff.trans stem ?_
  split
  · rename_i inside
    obtain ⟨rest, hrest⟩ := List.isPrefixOf_iff_prefix.mp inside
    rw [← hrest, List.drop_left]
    constructor
    · rintro ⟨digits, rfl, hd⟩
      exact ⟨_, digits, .inr rfl, hrest.symm, hd⟩
    · rintro ⟨top, digits, rfl | rfl, hname, hd⟩
      · exact absurd (hrest.trans hname) (by simp)
      · exact ⟨digits, List.append_cancel_left (hrest.trans hname), hd⟩
  · rename_i outside
    constructor
    · rintro ⟨digits, hname, hd⟩
      exact ⟨[], digits, .inl rfl, hname, hd⟩
    · rintro ⟨top, digits, rfl | rfl, hname, hd⟩
      · exact ⟨digits, hname, hd⟩
      · exact absurd (List.isPrefixOf_iff_prefix.mpr ⟨_, hname.symm⟩) outside

theorem IsNumbered.unique {name : String} {rank rank' : Nat} (h : IsNumbered name rank)
    (h' : IsNumbered name rank') : rank = rank' :=
  Option.some.inj ((rank?_eq_some_iff.mpr h).symm.trans (rank?_eq_some_iff.mpr h'))

theorem isNumbered_primaryName : IsNumbered primaryName 1 := rank?_eq_some_iff.mp (by decide)

/-- The name without a number is the least of all names of dex files. -/
theorem IsNumbered.primaryName_le {name : String} {rank : Nat} (h : IsNumbered name rank) :
    primaryName ≤ name := by
  obtain ⟨top, digits, htop, hname, hd⟩ := h
  rw [← String.not_lt, String.lt_iff, List.not_lt, hname]
  rcases htop with rfl | rfl
  · have split : primaryName.toList = "classes".toList ++ ".dex".toList := by decide
    rw [split, List.nil_append, List.append_assoc]
    apply List.append_left_le
    cases digits with
    | nil => exact List.le_refl _
    | cons c rest =>
      obtain ⟨h, -⟩ | ⟨⟨-, hdigits, -⟩, -⟩ := hd
      · cases h
      have after : '.' < c := Std.lt_of_lt_of_le (by decide) (hdigits c (by simp)).1
      exact List.cons_le_cons_iff.mpr (.inl after)
  · exact List.cons_le_cons_iff.mpr (.inl (by decide))

/-! ## Order -/

theorem precedes_iff {a b : DexEntry} :
    precedes a b ↔ a.rank < b.rank ∨ a.rank = b.rank ∧ a.name ≤ b.name := by
  simp [precedes]

theorem precedes_trans {a b c : DexEntry} (hab : precedes a b) (hbc : precedes b c) :
    precedes a c := by
  rw [precedes_iff] at hab hbc ⊢
  rcases hab with hab | ⟨hab, names⟩
  · rcases hbc with hbc | ⟨hbc, -⟩
    · exact .inl (Nat.lt_trans hab hbc)
    · exact .inl (hbc ▸ hab)
  · rw [hab]
    exact hbc.imp_right fun ⟨hbc, names'⟩ => ⟨hbc, String.le_trans names names'⟩

theorem precedes_total (a b : DexEntry) : precedes a b || precedes b a := by
  rw [Bool.or_eq_true, precedes_iff, precedes_iff]
  rcases Nat.lt_trichotomy a.rank b.rank with hlt | heq | hgt
  · exact .inl (.inl hlt)
  · exact (String.le_total a.name b.name).imp (fun h => .inr ⟨heq, h⟩) fun h => .inr ⟨heq.symm, h⟩
  · exact .inr (.inl hgt)

theorem pairwise_sort (entries : List DexEntry) : (sort entries).Pairwise (precedes · ·) := by
  apply List.pairwise_mergeSort
  · intro a b c
    exact precedes_trans
  · exact precedes_total

theorem mem_sort {entries : List DexEntry} {e : DexEntry} : e ∈ sort entries ↔ e ∈ entries :=
  List.mem_mergeSort

section

variable {entries rest : List DexEntry} {first : DexEntry} (h : sort entries = first :: rest)

include h

theorem mem_of_sort_eq_cons : first ∈ entries := mem_sort.mp (h ▸ List.mem_cons_self)

theorem precedes_of_sort_eq_cons {e : DexEntry} (he : e ∈ entries) : precedes first e := by
  rcases List.mem_cons.mp (h ▸ mem_sort.mpr he) with rfl | he
  · simpa using precedes_total e e
  · exact (List.pairwise_cons.mp (h ▸ pairwise_sort entries)).1 e he

/-- The name without a number is first, unless some number is zero. -/
theorem name_eq_primaryName_iff (numbered : ∀ e ∈ entries, IsNumbered e.name e.rank)
    (primary : ∃ e ∈ entries, e.name = primaryName) :
    first.name = primaryName ↔ ∀ e ∈ entries, e.rank ≠ 0 := by
  have hfirst := numbered first (mem_of_sort_eq_cons h)
  have one {e : DexEntry} (he : e ∈ entries) (hname : e.name = primaryName) : e.rank = 1 :=
    (numbered e he).unique (hname ▸ isNumbered_primaryName)
  constructor
  · intro hname e he zero
    have hrank := one (mem_of_sort_eq_cons h) hname
    have before := precedes_iff.mp (precedes_of_sort_eq_cons h he)
    omega
  · intro positive
    obtain ⟨e, he, hname⟩ := primary
    have hrank := one he hname
    have hpos := positive first (mem_of_sort_eq_cons h)
    rcases precedes_iff.mp (precedes_of_sort_eq_cons h he) with hlt | ⟨-, hle⟩
    · omega
    · exact String.le_antisymm (hname ▸ hle) hfirst.primaryName_le

end

end DexEntry

/-! ## Reading -/

/-- The name of an entry as a text. -/
def Zip.Entry.text (e : Zip.Entry) : String := Utf8.decodeLossy e.name.toList

namespace Input

section

variable {α β : Type}

/-- Whether an attempt succeeds does not depend on what it logs. -/
theorem value_run_bind (m : Attempt ScanError α) (f : α → Attempt ScanError β) :
    (m >>= f).run.value = m.run.value >>= fun a => (f a).run.value := by
  rw [ExceptT.run_bind, Logged.value_bind]
  cases m.run.value with
  | error e => rfl
  | ok a => rfl

theorem value_run_mapM (f : α → Attempt ScanError β) (xs : List α) :
    (xs.mapM f).run.value = xs.mapM fun x => (f x).run.value := by
  induction xs with
  | nil => rfl
  | cons x rest ih =>
    simp only [List.mapM_cons, value_run_bind, ih]
    rfl

theorem value_bind_eq_ok_iff {m : Attempt ScanError α} {f : α → Attempt ScanError β} {b : β} :
    (m >>= f).run.value = .ok b ↔ ∃ a, m.run.value = .ok a ∧ (f a).run.value = .ok b := by
  rw [value_run_bind, bind_eq_ok_iff]

theorem value_mapM_eq_ok_iff {f : α → Attempt ScanError β} {xs : List α} {ys : List β} :
    (xs.mapM f).run.value = .ok ys ↔
      List.Forall₂ (fun x y => (f x).run.value = .ok y) xs ys := by
  rw [value_run_mapM, mapM_eq_ok_iff]

@[simp] theorem value_orFail_eq_ok_iff {ε : Type} {f : ε → ScanError} {r : Except ε α} {a : α} :
    (orFail f r).run.value = .ok a ↔ r = .ok a := mapError_eq_ok_iff

end

/-- What an entry of an archive is read as: a dex file if its name is that of one. -/
inductive ReadsAs (archive : Zip.Source) (e : Zip.Entry) : Option DexEntry → Prop where
  | other {stored : Zip.Source} (hs : e.stored archive = .ok stored)
      (hn : ∀ rank, ¬ DexEntry.IsNumbered e.text rank) : ReadsAs archive e none
  | dex {stored : Zip.Source} {contents : Bytes} {rank : Nat} (hs : e.stored archive = .ok stored)
      (hc : e.contents stored = .ok contents) (hr : DexEntry.IsNumbered e.text rank) :
      ReadsAs archive e (some ⟨rank, e.text, contents⟩)

theorem ReadsAs.isNumbered {archive : Zip.Source} {e : Zip.Entry} {d : DexEntry}
    (h : ReadsAs archive e (some d)) : DexEntry.IsNumbered d.name d.rank := by
  cases h with
  | dex _ _ hr => exact hr

theorem ReadsAs.name_eq {archive : Zip.Source} {e : Zip.Entry} {d : DexEntry}
    (h : ReadsAs archive e (some d)) : d.name = e.text := by
  cases h with
  | dex => rfl

section

variable {archive : Zip.Source} {entries : List Zip.Entry} {found : List (Option DexEntry)}
  (h : List.Forall₂ (ReadsAs archive) entries found)

include h

theorem exists_entry_of_mem_found {d : DexEntry} (hd : d ∈ found.filterMap id) :
    ∃ e ∈ entries, ReadsAs archive e (some d) :=
  exists_of_forall₂_right h (by simpa using hd)

theorem exists_found_of_isNumbered {e : Zip.Entry} (he : e ∈ entries) {rank : Nat}
    (hr : DexEntry.IsNumbered e.text rank) :
    ∃ d ∈ found.filterMap id, d.name = e.text ∧ d.rank = rank := by
  obtain ⟨d, hd, hread⟩ := exists_of_forall₂_left h he
  cases hread with
  | other _ hn => exact absurd hr (hn rank)
  | dex _ _ hr' => exact ⟨_, by simpa using hd, rfl, hr'.unique hr⟩

end

theorem readEntry_eq_ok_iff {path : String} {archive : Zip.Source} {e : Zip.Entry}
    {found : Option DexEntry} :
    (readEntry path archive e).run.value = .ok found ↔ ReadsAs archive e found := by
  rw [readEntry, value_bind_eq_ok_iff]
  simp only [value_orFail_eq_ok_iff]
  cases hr : DexEntry.rank? (Utf8.decodeLossy e.name.toList) with
  | none =>
    have unnumbered (rank : Nat) : ¬ DexEntry.IsNumbered e.text rank := fun h =>
      absurd (hr.symm.trans (DexEntry.rank?_eq_some_iff.mpr h)) (by simp)
    constructor
    · rintro ⟨stored, hs, h⟩
      exact Except.ok.inj h ▸ .other hs unnumbered
    · intro h
      cases h with
      | other hs => exact ⟨_, hs, rfl⟩
      | dex _ _ hn => exact absurd hn (unnumbered _)
  | some rank =>
    have numbered : DexEntry.IsNumbered e.text rank := DexEntry.rank?_eq_some_iff.mp hr
    simp only [Option.isNone_some, Bool.false_eq_true, if_false, value_bind_eq_ok_iff,
      value_orFail_eq_ok_iff, DexEntry.ofFile?, hr, Option.map_some]
    constructor
    · rintro ⟨stored, hs, -, -, contents, hc, h⟩
      exact Except.ok.inj h ▸ .dex hs hc numbered
    · intro h
      cases h with
      | other _ hn => exact absurd numbered (hn rank)
      | dex hs hc hn =>
        obtain rfl := hn.unique numbered
        exact ⟨_, hs, (), rfl, _, hc, rfl⟩

theorem parseEntry_eq_ok_iff {e : DexEntry} {dex : Dex} :
    (parseEntry e).run.value = .ok dex ↔ Dex.read e.contents = .ok dex := by
  rw [parseEntry, value_bind_eq_ok_iff]
  constructor
  · rintro ⟨-, -, h⟩
    exact mapError_eq_ok_iff.mp h
  · intro h
    exact ⟨(), rfl, mapError_eq_ok_iff.mpr h⟩

theorem parseEntries_eq_ok_iff {path : String} {found : List DexEntry} {dexs : List Dex} :
    (parseEntries path found).run.value = .ok dexs ↔
      found ≠ [] ∧ List.Forall₂ (fun e dex => Dex.read e.contents = .ok dex)
        (DexEntry.sort found) dexs := by
  rw [parseEntries]
  cases found with
  | nil =>
    refine ⟨fun h => ?_, fun ⟨h, _⟩ => absurd rfl h⟩
    cases h
  | cons e rest =>
    rw [and_iff_right (List.cons_ne_nil e rest)]
    refine Iff.trans value_mapM_eq_ok_iff ?_
    simp only [parseEntry_eq_ok_iff]

/-- An archive is read as its dex files, if it has any, in the order of their numbers and names. -/
theorem readArchive_eq_ok_iff {path : String} {contents : Bytes} {dexs : List Dex} :
    (readArchive path contents).run.value = .ok dexs ↔
      ∃ entries found, Zip.entries contents.toArray = .ok entries ∧
        List.Forall₂ (ReadsAs contents.toArray) entries found ∧ found.filterMap id ≠ [] ∧
        List.Forall₂ (fun e dex => Dex.read e.contents = .ok dex)
          (DexEntry.sort (found.filterMap id)) dexs := by
  simp only [readArchive, value_bind_eq_ok_iff, value_orFail_eq_ok_iff, value_mapM_eq_ok_iff,
    readEntry_eq_ok_iff, parseEntries_eq_ok_iff, exists_and_left]

end Input

end PermissionAudit
