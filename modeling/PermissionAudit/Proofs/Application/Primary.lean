import PermissionAudit.Proofs.Application.Archive
import PermissionAudit.Proofs.Archive.Stored
import PermissionAudit.Proofs.Registry.Origin
import PermissionAudit.Proofs.Text.Utf8

/-!
The first dex file of an archive. Its classes are registered whatever the other
files define. It is the one without a number, `classes.dex`, as long as no file has
the number zero: such a file comes before, and its classes hide those of the same
names.
-/

namespace PermissionAudit

/-! ## Classes of the first file -/

namespace Registry

/-- The classes that a file defines are registered, each from the first definition of its name in
the file, and there is no other class of that name. -/
def HasClassesOf (exclusions : List String) (dex : Dex) (r : Registry) : Prop :=
  ∀ name, ¬ Excluded exclusions name → (∃ d ∈ definitions [dex], Defines d name) →
    ∃ p d c, IsOrigin exclusions (definitions [dex]) p name ∧ (definitions [dex])[p]? = some d ∧
      c ∈ r.classes ∧ c.name = name ∧ FromDefinition r d c ∧
      ∀ c' ∈ r.classes, c'.name = name → c' = c

/-- A definition that is the first of its name stays so when more follow. -/
theorem IsOrigin.append {exclusions : List String} {defs : List (Dex × Dex.ClassDef)} {p : Nat}
    {name : String} (h : IsOrigin exclusions defs p name) (more : List (Dex × Dex.ClassDef)) :
    IsOrigin exclusions (defs ++ more) p name := by
  obtain ⟨d, hd, hdef⟩ := h.defines
  refine ⟨h.not_excluded, ⟨d, getElem?_of_prefix (List.prefix_append ..) hd, hdef⟩, ?_⟩
  rw [List.take_append_of_le_length (Nat.le_of_lt (List.getElem?_eq_some_iff.mp hd).1)]
  exact h.first

theorem hasClassesOf_ofDexs (dex : Dex) (rest : List Dex) (exclusions : List String) :
    HasClassesOf exclusions dex (ofDexs (dex :: rest) exclusions).value := by
  intro name he defined
  obtain ⟨p, horigin⟩ := exists_isOrigin he defined
  obtain ⟨d, hd, -⟩ := horigin.defines
  obtain ⟨origins, h⟩ := exists_registered ([dex] ++ rest) exclusions
  -- the definitions of the file come before all others
  rw [definitions_append] at h
  obtain ⟨c, hc, hname, d', hd', hfrom⟩ := h.exists_class_of_isOrigin (horigin.append _)
  have same : (definitions [dex] ++ definitions rest)[p]? = some d :=
    getElem?_of_prefix (List.prefix_append ..) hd
  obtain rfl : d = d' := Option.some.inj (same.symm.trans hd')
  refine ⟨p, d, c, horigin, hd, hc, hname, hfrom, fun c' hc' hname' => ?_⟩
  exact List.inj_on_of_nodup_map h.names_nodup hc' hc (hname'.trans hname.symm)

end Registry

/-! ## The first file -/

/-- An entry holds a dex file. -/
def Zip.Entry.HoldsDex (archive : Zip.Source) (e : Zip.Entry) (dex : Dex) : Prop :=
  ∃ stored contents, e.stored archive = .ok stored ∧ e.contents stored = .ok contents ∧
    Dex.read contents = .ok dex

namespace Input

/-- The entries of an archive can be opened, and those with the name of a dex file hold one. -/
structure IsReadable (archive : Zip.Source) (entries : List Zip.Entry) : Prop where
  listed : Zip.entries archive = .ok entries
  opened : ∀ e ∈ entries, ∃ stored, e.stored archive = .ok stored
  parsed : ∀ e ∈ entries, ∀ rank, DexEntry.IsNumbered e.text rank → ∃ dex, e.HoldsDex archive dex

theorem ReadsAs.holdsDex_iff {archive : Zip.Source} {e : Zip.Entry} {d : DexEntry} {dex : Dex}
    (h : ReadsAs archive e (some d)) : e.HoldsDex archive dex ↔ Dex.read d.contents = .ok dex := by
  cases h with
  | dex hs hc hr =>
    constructor
    · rintro ⟨stored, contents, hs', hc', hd⟩
      obtain rfl := Except.ok.inj (hs.symm.trans hs')
      obtain rfl := Except.ok.inj (hc.symm.trans hc')
      exact hd
    · intro hd
      exact ⟨_, _, hs, hc, hd⟩

/-- The numbers of the files that are found are those of the entries. -/
theorem forall_rank_ne_zero_iff {archive : Zip.Source} {entries : List Zip.Entry}
    {found : List (Option DexEntry)} (h : List.Forall₂ (ReadsAs archive) entries found) :
    (∀ d ∈ found.filterMap id, d.rank ≠ 0) ↔
      ∀ e ∈ entries, ¬ DexEntry.IsNumbered e.text 0 := by
  constructor
  · intro positive e he hr
    obtain ⟨d, hd, -, hrank⟩ := exists_found_of_isNumbered h he hr
    exact positive d hd hrank
  · intro positive d hd hrank
    obtain ⟨e, he, hread⟩ := exists_entry_of_mem_found h hd
    exact positive e he (hread.name_eq ▸ hrank ▸ hread.isNumbered)

namespace IsReadable

variable {contents : Bytes} {entries : List Zip.Entry}

theorem exists_readsAs (h : IsReadable contents.toArray entries) :
    ∃ found, List.Forall₂ (ReadsAs contents.toArray) entries found := by
  apply exists_forall₂
  intro e he
  obtain ⟨stored, hs⟩ := h.opened e he
  by_cases hn : ∃ rank, DexEntry.IsNumbered e.text rank
  · obtain ⟨rank, hr⟩ := hn
    obtain ⟨dex, stored', bytes, hs', hc, -⟩ := h.parsed e he rank hr
    exact ⟨_, .dex hs' hc hr⟩
  · exact ⟨none, .other hs fun rank hr => hn ⟨rank, hr⟩⟩

theorem exists_parsed (h : IsReadable contents.toArray entries) {found : List (Option DexEntry)}
    (hfound : List.Forall₂ (ReadsAs contents.toArray) entries found) :
    ∃ dexs, List.Forall₂ (fun d dex => Dex.read d.contents = .ok dex)
      (DexEntry.sort (found.filterMap id)) dexs := by
  apply exists_forall₂
  intro d hd
  obtain ⟨e, he, hread⟩ := exists_entry_of_mem_found hfound (DexEntry.mem_sort.mp hd)
  obtain ⟨dex, hdex⟩ := h.parsed e he d.rank (hread.name_eq ▸ hread.isNumbered)
  exact ⟨dex, hread.holdsDex_iff.mp hdex⟩

/-- The first file of an archive with a file `classes.dex`. -/
theorem exists_first (h : IsReadable contents.toArray entries)
    (primary : ∃ e ∈ entries, e.text = DexEntry.primaryName) (path : String) :
    ∃ first ∈ entries, ∃ dex rest, first.HoldsDex contents.toArray dex ∧
      (readArchive path contents).run.value = .ok (dex :: rest) ∧
      (first.text = DexEntry.primaryName ↔ ∀ e ∈ entries, ¬ DexEntry.IsNumbered e.text 0) := by
  obtain ⟨found, hfound⟩ := h.exists_readsAs
  obtain ⟨dexs, hdexs⟩ := h.exists_parsed hfound
  have named : ∃ d ∈ found.filterMap id, d.name = DexEntry.primaryName := by
    obtain ⟨e, he, hname⟩ := primary
    obtain ⟨d, hd, hd', -⟩ :=
      exists_found_of_isNumbered hfound he (hname ▸ DexEntry.isNumbered_primaryName)
    exact ⟨d, hd, hd'.trans hname⟩
  have some_found : found.filterMap id ≠ [] := List.ne_nil_of_mem named.choose_spec.1
  have read : (readArchive path contents).run.value = .ok dexs :=
    readArchive_eq_ok_iff.mpr ⟨entries, found, h.listed, hfound, some_found, hdexs⟩
  have some_sorted : DexEntry.sort (found.filterMap id) ≠ [] :=
    List.ne_nil_of_mem (DexEntry.mem_sort.mpr named.choose_spec.1)
  obtain ⟨d, later, hsort⟩ := List.exists_cons_of_ne_nil some_sorted
  obtain ⟨first, hfirst, hread⟩ :=
    exists_entry_of_mem_found hfound (DexEntry.mem_of_sort_eq_cons hsort)
  rw [hsort] at hdexs
  cases hdexs with
  | cons hdex _ =>
    refine ⟨first, hfirst, _, _, hread.holdsDex_iff.mpr hdex, read, ?_⟩
    rw [← hread.name_eq, ← forall_rank_ne_zero_iff hfound]
    refine DexEntry.name_eq_primaryName_iff hsort (fun d hd => ?_) named
    obtain ⟨e, -, hread⟩ := exists_entry_of_mem_found hfound hd
    exact hread.isNumbered

end IsReadable

end Input

/-- **The primary file wins.** In an archive whose dex files can be read, with a file `classes.dex`
among them, there is a first file, and it is `classes.dex` unless some file has the number zero.
Whatever the other files define, each class that the first file defines is registered from the
first definition there. -/
theorem readArchive_primary_first {contents : Bytes} {entries : List Zip.Entry}
    (h : Input.IsReadable contents.toArray entries)
    (primary : ∃ e ∈ entries, e.text = DexEntry.primaryName) (path : String) :
    ∃ first ∈ entries, ∃ dex rest, first.HoldsDex contents.toArray dex ∧
      (Input.readArchive path contents).run.value = .ok (dex :: rest) ∧
      (first.text = DexEntry.primaryName ↔ ∀ e ∈ entries, ¬ DexEntry.IsNumbered e.text 0) ∧
      ∀ exclusions, Registry.HasClassesOf exclusions dex
        (Registry.ofDexs (dex :: rest) exclusions).value := by
  obtain ⟨first, hfirst, dex, rest, hdex, read, hname⟩ := h.exists_first primary path
  exact ⟨first, hfirst, dex, rest, hdex, read, hname, Registry.hasClassesOf_ofDexs dex rest⟩

/-! ## Files that are not compressed -/

/-- A file with a name, as it is stored in an archive. -/
def Zip.File.named (f : String × Bytes) : Zip.File := ⟨Utf8.encode f.1, f.2⟩

namespace Input

variable {files : List (String × Bytes)}

theorem map_text_entriesFrom (start : Nat) (files : List (String × Bytes)) :
    (Zip.entriesFrom start (files.map .named)).map Zip.Entry.text = files.map (·.1) := by
  induction files generalizing start with
  | nil => rfl
  | cons f rest ih =>
    have name : ((Zip.File.named f).entry start).text = f.1 := Utf8.decodeLossy_encode f.1
    rw [List.map_cons, Zip.entriesFrom, List.map_cons, ih, name, List.map_cons]

theorem exists_named_of_mem_entries (fits : Zip.Fits (files.map .named)) {e : Zip.Entry}
    (he : e ∈ Zip.entriesFrom 0 (files.map .named)) :
    ∃ f ∈ files, e.text = f.1 ∧
      e.stored (Zip.archive (files.map .named)).toArray = .ok f.2.toArray ∧
      e.contents f.2.toArray = .ok f.2 := by
  obtain ⟨stored, hmem, hname, hopen⟩ := Zip.exists_file_of_mem_entries fits he
  obtain ⟨f, hf, rfl⟩ := List.mem_map.mp hmem
  refine ⟨f, hf, ?_, hopen⟩
  rw [Zip.Entry.text, hname]
  exact Utf8.decodeLossy_encode f.1

theorem isReadable_archive (fits : Zip.Fits (files.map .named))
    (parsed : ∀ f ∈ files, ∃ dex, Dex.read f.2 = .ok dex) :
    IsReadable (Zip.archive (files.map .named)).toArray (Zip.entriesFrom 0 (files.map .named)) where
  listed := Zip.entries_archive fits
  opened e he := by
    obtain ⟨f, -, -, hs, -⟩ := exists_named_of_mem_entries fits he
    exact ⟨_, hs⟩
  parsed e he rank hr := by
    obtain ⟨f, hf, -, hs, hc⟩ := exists_named_of_mem_entries fits he
    obtain ⟨dex, hdex⟩ := parsed f hf
    exact ⟨dex, _, _, hs, hc, hdex⟩

theorem exists_named_of_holdsDex (fits : Zip.Fits (files.map .named)) {e : Zip.Entry}
    (he : e ∈ Zip.entriesFrom 0 (files.map .named)) {dex : Dex}
    (h : e.HoldsDex (Zip.archive (files.map .named)).toArray dex) :
    ∃ f ∈ files, e.text = f.1 ∧ Dex.read f.2 = .ok dex := by
  obtain ⟨stored, contents, hs, hc, hdex⟩ := h
  obtain ⟨f, hf, hname, hs', hc'⟩ := exists_named_of_mem_entries fits he
  obtain rfl := Except.ok.inj (hs.symm.trans hs')
  obtain rfl := Except.ok.inj (hc.symm.trans hc')
  exact ⟨f, hf, hname, hdex⟩

end Input

/-! ## Two files with one class -/

/-- A file with one class `A`. The superclass is a type by its index, and the second type is
`B`. -/
def classFile (superclass : Option Nat) : Bytes :=
  Dex.Header.magic ++ [0x30, 0x33, 0x35, 0] ++ List.replicate 28 0 ++
    [0x70, 0x12345678, 0, 0, 0, 2, 112, 2, 120, 0, 0, 0, 0, 0, 0, 1, 128, 0, 0, 160, 165, 0, 1,
      0, 1, superclass.getD Dex.noIndex, 0, 0, 0, 0, 0].flatMap Bytes.le32 ++
    [3, 0x4C, 0x41, 0x3B, 0, 3, 0x4C, 0x42, 0x3B, 0]

/-- What is read from the file. -/
def classDex (superclass : Option Nat) : Dex where
  header := .ofBytes 35 (classFile superclass)
  raw := classFile superclass
  strings := [160, 165]
  types := [0, 1]
  protos := []
  fields := []
  methods := []
  classes := [⟨0, 1, superclass, [], none⟩]

theorem read_classFile_none : Dex.read (classFile none) = .ok (classDex none) := by decide +kernel

theorem read_classFile_second : Dex.read (classFile (some 1)) = .ok (classDex (some 1)) := by
  decide +kernel

/-- If the file comes first, `A` is registered with the superclass that the file says. -/
theorem superclass_of_hasClassesOf {superclass : Option Nat} {r : Registry}
    (h : Registry.HasClassesOf [] (classDex superclass) r)
    (name : Registry.Names (classDex superclass) 0 "A")
    (resolved : ∀ i ∈ superclass, ∃ n, Registry.Names (classDex superclass) i n) :
    "A" ∈ r.classes.map (·.name) ∧ ∀ c ∈ r.classes, c.name = "A" →
      List.Forall₂ (Registry.Names (classDex superclass)) superclass.toList
        c.superclass.toList := by
  have only (d : Dex × Dex.ClassDef) (hd : d ∈ Registry.definitions [classDex superclass]) :
      d = (classDex superclass, ⟨0, 1, superclass, [], none⟩) := by
    simpa [Registry.definitions, classDex] using hd
  obtain ⟨p, d, c, -, hd, hc, hname, hfrom, unique⟩ := h "A" (by simp [Registry.Excluded])
    ⟨(classDex superclass, ⟨0, 1, superclass, [], none⟩), by simp [Registry.definitions, classDex],
      name, resolved, by simp⟩
  obtain rfl := only d (List.mem_of_getElem? hd)
  refine ⟨List.mem_map.mpr ⟨c, hc, hname⟩, fun c' hc' hname' => ?_⟩
  exact unique c' hc' hname' ▸ hfrom.superclass

/-- Files of an archive, `classes.dex` and one more, which both define `A`. -/
def overlay (name : String) : List (String × Bytes) :=
  [(name, classFile (some 1)), (DexEntry.primaryName, classFile none)]

/-- The bytes of the archive. -/
def overlayArchive (name : String) : Bytes := Zip.archive ((overlay name).map .named)

/-- Its entries. -/
def overlayEntries (name : String) : List Zip.Entry := Zip.entriesFrom 0 ((overlay name).map .named)

section

variable {name : String} (fits : Zip.Fits ((overlay name).map .named))

theorem map_text_overlayEntries (name : String) :
    (overlayEntries name).map Zip.Entry.text = [name, DexEntry.primaryName] :=
  Input.map_text_entriesFrom 0 (overlay name)

theorem forall_not_isNumbered_zero_iff (name : String) :
    (∀ e ∈ overlayEntries name, ¬ DexEntry.IsNumbered e.text 0) ↔
      ¬ DexEntry.IsNumbered name 0 := by
  have primary : ¬ DexEntry.IsNumbered DexEntry.primaryName 0 := fun h =>
    absurd (h.unique DexEntry.isNumbered_primaryName) (by decide)
  have texts := List.forall_mem_map (f := Zip.Entry.text) (l := overlayEntries name)
    (P := fun text => ¬ DexEntry.IsNumbered text 0)
  rw [← texts, map_text_overlayEntries]
  simp [primary]

theorem exists_primary_overlayEntries (name : String) :
    ∃ e ∈ overlayEntries name, e.text = DexEntry.primaryName := by
  have : DexEntry.primaryName ∈ (overlayEntries name).map Zip.Entry.text := by
    simp [map_text_overlayEntries]
  exact List.mem_map.mp this

include fits

theorem isReadable_overlay :
    Input.IsReadable (overlayArchive name).toArray (overlayEntries name) := by
  refine Input.isReadable_archive fits fun f hf => ?_
  rcases List.mem_pair.mp hf with rfl | rfl
  · exact ⟨_, read_classFile_second⟩
  · exact ⟨_, read_classFile_none⟩

theorem dex_eq_of_holdsDex {e : Zip.Entry} (he : e ∈ overlayEntries name) {dex : Dex}
    (h : e.HoldsDex (overlayArchive name).toArray dex) :
    e.text = name ∧ dex = classDex (some 1) ∨
      e.text = DexEntry.primaryName ∧ dex = classDex none := by
  obtain ⟨f, hf, hname, hdex⟩ := Input.exists_named_of_holdsDex fits he h
  rcases List.mem_pair.mp hf with rfl | rfl
  · exact .inl ⟨hname, Except.ok.inj (hdex.symm.trans read_classFile_second)⟩
  · exact .inr ⟨hname, Except.ok.inj (hdex.symm.trans read_classFile_none)⟩

end

/-- With a second file, `A` is the class of `classes.dex`. -/
theorem overlay_second_registered :
    Input.IsReadable (overlayArchive "classes2.dex").toArray (overlayEntries "classes2.dex") ∧
      ∃ rest, (Input.readArchive "a.apk" (overlayArchive "classes2.dex")).run.value =
          .ok (classDex none :: rest) ∧
        let r := (Registry.ofDexs (classDex none :: rest) []).value
        "A" ∈ r.classes.map (·.name) ∧ ∀ c ∈ r.classes, c.name = "A" → c.superclass = none := by
  have fits : Zip.Fits ((overlay "classes2.dex").map .named) :=
    ⟨by decide, by decide, by decide +kernel⟩
  have readable := isReadable_overlay fits
  obtain ⟨first, hfirst, dex, rest, hdex, read, hname, hclasses⟩ :=
    readArchive_primary_first readable (exists_primary_overlayEntries _) "a.apk"
  have positive : ¬ DexEntry.IsNumbered "classes2.dex" 0 := by
    rw [← DexEntry.rank?_eq_some_iff]
    decide
  have primary := hname.mpr ((forall_not_isNumbered_zero_iff _).mpr positive)
  rcases dex_eq_of_holdsDex fits hfirst hdex with ⟨hother, -⟩ | ⟨-, rfl⟩
  · exact absurd (hother.symm.trans primary) (by decide)
  · have name : Registry.Names (classDex none) 0 "A" := ⟨.object "A", by decide +kernel, by decide⟩
    obtain ⟨registered, hsuper⟩ := superclass_of_hasClassesOf (hclasses []) name (by simp)
    refine ⟨readable, rest, read, registered, fun c hc hc' => ?_⟩
    simpa using hsuper c hc hc'

/-- **A file with the number zero hides the primary one**: it comes before `classes.dex`, and `A` is
its class. -/
theorem overlay_zero_hides_primary :
    Input.IsReadable (overlayArchive "classes0.dex").toArray (overlayEntries "classes0.dex") ∧
      ((overlayEntries "classes0.dex").map Zip.Entry.text).Nodup ∧
      (∃ e ∈ overlayEntries "classes0.dex", e.text = DexEntry.primaryName ∧
        e.HoldsDex (overlayArchive "classes0.dex").toArray (classDex none)) ∧
      ∃ rest, (Input.readArchive "a.apk" (overlayArchive "classes0.dex")).run.value =
          .ok (classDex (some 1) :: rest) ∧
        let r := (Registry.ofDexs (classDex (some 1) :: rest) []).value
        "A" ∈ r.classes.map (·.name) ∧ ∀ c ∈ r.classes, c.name = "A" → c.superclass = some "B" := by
  have fits : Zip.Fits ((overlay "classes0.dex").map .named) :=
    ⟨by decide, by decide, by decide +kernel⟩
  have readable := isReadable_overlay fits
  have distinct : ((overlayEntries "classes0.dex").map Zip.Entry.text).Nodup := by
    rw [map_text_overlayEntries]
    decide
  have hidden : ∃ e ∈ overlayEntries "classes0.dex", e.text = DexEntry.primaryName ∧
      e.HoldsDex (overlayArchive "classes0.dex").toArray (classDex none) := by
    obtain ⟨e, he, hname⟩ := exists_primary_overlayEntries "classes0.dex"
    obtain ⟨dex, hdex⟩ := readable.parsed e he 1 (hname ▸ DexEntry.isNumbered_primaryName)
    rcases dex_eq_of_holdsDex fits he hdex with ⟨hother, -⟩ | ⟨-, rfl⟩
    · exact absurd (hother.symm.trans hname) (by decide)
    · exact ⟨e, he, hname, hdex⟩
  refine ⟨readable, distinct, hidden, ?_⟩
  obtain ⟨first, hfirst, dex, rest, hdex, read, hname⟩ :=
    readable.exists_first (exists_primary_overlayEntries _) "a.apk"
  have zero : DexEntry.IsNumbered "classes0.dex" 0 := DexEntry.rank?_eq_some_iff.mp (by decide)
  rcases dex_eq_of_holdsDex fits hfirst hdex with ⟨-, rfl⟩ | ⟨hprimary, -⟩
  · have name : Registry.Names (classDex (some 1)) 0 "A" :=
      ⟨.object "A", by decide +kernel, by decide⟩
    have super : Registry.Names (classDex (some 1)) 1 "B" :=
      ⟨.object "B", by decide +kernel, by decide⟩
    obtain ⟨registered, hsuper⟩ := superclass_of_hasClassesOf
      (Registry.hasClassesOf_ofDexs (classDex (some 1)) rest []) name (by simpa using ⟨_, super⟩)
    refine ⟨rest, read, registered, fun c hc hc' => ?_⟩
    have hfound := hsuper c hc hc'
    cases hs : c.superclass with
    | none => simp [hs] at hfound
    | some n =>
      simp only [hs, Option.toList_some, List.forall₂_cons, List.Forall₂.nil, and_true] at hfound
      exact congrArg some (hfound.unique super)
  · exact absurd zero ((forall_not_isNumbered_zero_iff _).mp (hname.mp hprimary))

end PermissionAudit
