import PermissionAudit.Proofs.Application.Primary

/-!
The order of the dex files of an archive. Files with the name of a dex file are
selected, and put in order by their numbers, then by the bytes of their names. No two
files have one name, so this is a strict order, and only one list is in it: where a
file stands in the archive makes no difference.
-/

namespace PermissionAudit

/-! ## Files of an archive -/

namespace Zip

/-- An entry is that of a file: it has the name, and leads to the contents. -/
def Entry.IsOf (archive : Source) (e : Entry) (f : String × Bytes) : Prop :=
  e.text = f.1 ∧ ∃ stored, e.stored archive = .ok stored ∧ e.contents stored = .ok f.2

/-- The files of an archive, each a name with contents, in the order of the directory. -/
def Lists (archive : Source) (files : List (String × Bytes)) : Prop :=
  ∃ entries, Zip.entries archive = .ok entries ∧ List.Forall₂ (Entry.IsOf archive) entries files

/-- The files that are written to an archive are those that it lists. -/
theorem lists_archive {files : List (String × Bytes)} (fits : Fits (files.map .named)) :
    Lists (archive (files.map .named)).toArray files := by
  refine ⟨_, entries_archive fits, ?_⟩
  refine (List.forall₂_map_right_iff.mp (forall₂_entries fits)).imp fun e f h => ?_
  obtain ⟨name, stored, contents⟩ := h
  refine ⟨?_, _, stored, contents⟩
  rw [Entry.text, name]
  exact Utf8.decodeLossy_encode f.1

end Zip

namespace DexEntry

/-! ## The order of names -/

/-- By number, then by the bytes of the name. -/
def Before (a b : DexEntry) : Prop :=
  a.rank < b.rank ∨ a.rank = b.rank ∧ Utf8.encode a.name < Utf8.encode b.name

instance (a b : DexEntry) : Decidable (Before a b) :=
  inferInstanceAs (Decidable (_ ∨ _))

instance : Std.Irrefl Before where
  irrefl a h := by
    rcases h with h | ⟨-, h⟩
    · exact Nat.lt_irrefl _ h
    · exact List.lt_irrefl _ h

theorem Before.asymm {a b : DexEntry} (h : Before a b) : ¬ Before b a := by
  intro h'
  rcases h with h | ⟨h, names⟩
  · rcases h' with h' | ⟨h', -⟩
    · omega
    · omega
  · rcases h' with h' | ⟨-, names'⟩
    · omega
    · exact List.lt_asymm names names'

/-- Names of dex files have one byte for each character. -/
theorem IsNumbered.toNat_lt {name : String} {rank : Nat} (h : IsNumbered name rank) :
    ∀ c ∈ name.toList, c.toNat < 128 := by
  obtain ⟨top, digits, htop, hname, hd⟩ := h
  have hdigits : ∀ c ∈ digits, c.toNat < 128 := by
    intro c hc
    obtain ⟨rfl, -⟩ | ⟨⟨-, hall, -⟩, -⟩ := hd
    · cases hc
    · exact Nat.lt_of_le_of_lt (hall c hc).2 (by decide)
  have hfront : ∀ c ∈ top, c.toNat < 128 := by
    rcases htop with rfl | rfl
    · simp
    · simp
  rw [hname]
  simp only [List.mem_append]
  rintro c (hc | (hc | hc) | hc)
  · exact hfront c hc
  · revert c
    simp
  · exact hdigits c hc
  · revert c
    simp

/-- Entries in order are one strictly before the other, unless they have one name. -/
theorem before_of_precedes {a b : DexEntry} (ha : IsNumbered a.name a.rank)
    (hb : IsNumbered b.name b.rank) (h : precedes a b) (distinct : a.name ≠ b.name) :
    Before a b := by
  rcases precedes_iff.mp h with hlt | ⟨heq, hle⟩
  · exact .inl hlt
  · refine .inr ⟨heq, (Utf8.encode_lt_encode_iff ha.toNat_lt hb.toNat_lt).mpr ?_⟩
    exact Std.lt_of_le_of_ne hle distinct

/-! ## Selection -/

/-- The files with the name of a dex file, and no others, in order. -/
structure Selects (files : List (String × Bytes)) (selected : List DexEntry) : Prop where
  mem_iff : ∀ d, d ∈ selected ↔ (d.name, d.contents) ∈ files ∧ IsNumbered d.name d.rank
  ordered : selected.Pairwise Before

/-- The dex files among files, as they are found. -/
def found (files : List (String × Bytes)) : List DexEntry :=
  files.filterMap fun f => ofFile? f.1 f.2

section

variable {files : List (String × Bytes)}

theorem ofFile?_eq_some_iff {name : String} {contents : Bytes} {d : DexEntry} :
    ofFile? name contents = some d ↔
      (name, contents) = (d.name, d.contents) ∧ IsNumbered d.name d.rank := by
  rw [ofFile?, Option.map_eq_some_iff, ← rank?_eq_some_iff]
  constructor
  · rintro ⟨rank, hr, rfl⟩
    exact ⟨rfl, hr⟩
  · rintro ⟨heq, hr⟩
    obtain ⟨rfl, rfl⟩ := Prod.mk.inj heq
    exact ⟨d.rank, hr, rfl⟩

theorem mem_found {d : DexEntry} :
    d ∈ found files ↔ (d.name, d.contents) ∈ files ∧ IsNumbered d.name d.rank := by
  simp only [found, List.mem_filterMap, ofFile?_eq_some_iff]
  constructor
  · rintro ⟨f, hf, heq, hn⟩
    exact ⟨heq ▸ hf, hn⟩
  · rintro ⟨hf, hn⟩
    exact ⟨_, hf, rfl, hn⟩

theorem pairwise_name_found (distinct : (files.map (·.1)).Nodup) :
    (found files).Pairwise fun a b => a.name ≠ b.name := by
  rw [found, List.pairwise_filterMap]
  refine (List.pairwise_map.mp distinct).imp fun hne a ha b hb => ?_
  obtain ⟨hname, -⟩ := Prod.mk.inj (ofFile?_eq_some_iff.mp ha).1
  obtain ⟨hname', -⟩ := Prod.mk.inj (ofFile?_eq_some_iff.mp hb).1
  rwa [hname, hname'] at hne

/-- A list in order of what is found is the selection. -/
theorem selects_of_perm {selected : List DexEntry} (perm : selected.Perm (found files))
    (ordered : selected.Pairwise Before) : Selects files selected where
  mem_iff _ := perm.mem_iff.trans mem_found
  ordered := ordered

/-- Sorting what is found selects it. -/
theorem selects_sort (distinct : (files.map (·.1)).Nodup) :
    Selects files (sort (found files)) := by
  have perm : (sort (found files)).Perm (found files) := List.mergeSort_perm _ _
  have names : (sort (found files)).Pairwise fun a b => a.name ≠ b.name :=
    (perm.pairwise_iff Ne.symm).mpr (pairwise_name_found distinct)
  apply selects_of_perm perm
  refine ((pairwise_sort (found files)).and names).imp_of_mem fun ha hb h => ?_
  have numbered {d : DexEntry} (hd : d ∈ sort (found files)) : IsNumbered d.name d.rank :=
    (mem_found.mp (mem_sort.mp hd)).2
  exact before_of_precedes (numbered ha) (numbered hb) h.1 h.2

/-- The selection depends on what files there are, and not on their order. -/
theorem Selects.unique {files' : List (String × Bytes)} {selected selected' : List DexEntry}
    (h : Selects files selected) (h' : Selects files' selected')
    (same : ∀ f, f ∈ files ↔ f ∈ files') : selected = selected' := by
  have perm : selected.Perm selected' := by
    rw [List.perm_ext_iff_of_nodup h.ordered.nodup h'.ordered.nodup]
    intro d
    rw [h.mem_iff, h'.mem_iff, same]
  apply perm.eq_of_pairwise _ h.ordered h'.ordered
  intro a b _ _ hab hba
  exact absurd hba hab.asymm

end

end DexEntry

/-! ## Reading -/

namespace Input

open DexEntry (Selects found selects_sort)

/-- What dex files in order are parsed as. -/
def parsed (path : String) (selected : List DexEntry) : Except ScanError (List Dex) :=
  if selected = [] then .error (.noDex path)
  else selected.mapM fun d => (Dex.read d.contents).mapError .dex

section

variable {path : String} {selected : List DexEntry}

theorem parsed_eq_ok_iff {dexs : List Dex} :
    parsed path selected = .ok dexs ↔
      selected ≠ [] ∧ List.Forall₂ (fun d dex => Dex.read d.contents = .ok dex) selected dexs := by
  unfold parsed
  split
  · simp [*]
  · simp only [mapM_eq_ok_iff, mapError_eq_ok_iff, ne_eq, *, not_false_eq_true, true_and]

/-- Other failures than that of an empty selection are those of a file. -/
theorem exists_read_eq_error {error : ScanError} (h : parsed path selected = .error error)
    (some_selected : selected ≠ []) :
    ∃ d ∈ selected, ∃ cause, Dex.read d.contents = .error cause ∧ error = .dex cause := by
  rw [parsed, if_neg some_selected] at h
  obtain ⟨d, hd, failed⟩ := exists_of_mapM_eq_error h
  refine ⟨d, hd, ?_⟩
  cases hread : Dex.read d.contents with
  | ok dex => simp [hread, Except.mapError] at failed
  | error cause =>
    rw [hread] at failed
    exact ⟨cause, rfl, (Except.error.inj failed).symm⟩

theorem parsed_eq_noDex_iff : parsed path selected = .error (.noDex path) ↔ selected = [] := by
  constructor
  · intro h
    by_contra some_selected
    obtain ⟨-, -, cause, -, heq⟩ := exists_read_eq_error h some_selected
    cases heq
  · intro h
    exact if_pos h

theorem exists_parsed_eq_dex_iff :
    (∃ cause, parsed path selected = .error (.dex cause)) ↔
      ∃ d ∈ selected, ∃ cause, Dex.read d.contents = .error cause := by
  constructor
  · rintro ⟨cause, h⟩
    have some_selected : selected ≠ [] := by
      intro none
      rw [parsed, if_pos none] at h
      cases h
    obtain ⟨d, hd, cause, failed, -⟩ := exists_read_eq_error h some_selected
    exact ⟨d, hd, cause, failed⟩
  · rintro ⟨d, hd, cause, failed⟩
    cases h : parsed path selected with
    | ok dexs =>
      obtain ⟨dex, -, hdex⟩ := exists_of_forall₂_left (parsed_eq_ok_iff.mp h).2 hd
      rw [failed] at hdex
      cases hdex
    | error error =>
      obtain ⟨-, -, cause, -, rfl⟩ := exists_read_eq_error h (List.ne_nil_of_mem hd)
      exact ⟨cause, rfl⟩

end

theorem value_parseEntries (path : String) (entries : List DexEntry) :
    (parseEntries path entries).run.value = parsed path (DexEntry.sort entries) := by
  cases entries with
  | nil =>
    rw [parsed, if_pos (show DexEntry.sort [] = [] from List.mergeSort_nil)]
    rfl
  | cons e rest =>
    have some_sorted : DexEntry.sort (e :: rest) ≠ [] :=
      List.ne_nil_of_mem (DexEntry.mem_sort.mpr List.mem_cons_self)
    rw [parsed, if_neg some_sorted]
    exact value_run_mapM parseEntry _

section

variable {contents : Bytes} {files : List (String × Bytes)}

theorem readsAs_of_isOf {archive : Zip.Source} {e : Zip.Entry} {f : String × Bytes}
    (h : e.IsOf archive f) : ReadsAs archive e (DexEntry.ofFile? f.1 f.2) := by
  obtain ⟨hname, stored, hs, hc⟩ := h
  cases hr : DexEntry.ofFile? f.1 f.2 with
  | none =>
    refine .other hs fun rank hn => ?_
    rw [hname, ← DexEntry.rank?_eq_some_iff] at hn
    simp [DexEntry.ofFile?, hn] at hr
  | some d =>
    obtain ⟨heq, hn⟩ := DexEntry.ofFile?_eq_some_iff.mp hr
    obtain ⟨hd, hd'⟩ := Prod.mk.inj heq
    have read : ReadsAs archive e (some ⟨d.rank, e.text, f.2⟩) := .dex hs hc (by rwa [hname, hd])
    rwa [hname, hd, hd'] at read

/-- An archive is read as its selection. -/
theorem value_readArchive (listed : Zip.Lists contents.toArray files)
    (distinct : (files.map (·.1)).Nodup) {selected : List DexEntry}
    (selects : Selects files selected) (path : String) :
    (readArchive path contents).run.value = parsed path selected := by
  obtain ⟨entries, hentries, hof⟩ := listed
  have opened : (orFail .archive (Zip.entries contents.toArray)).run.value = .ok entries :=
    value_orFail_eq_ok_iff.mpr hentries
  have read : (entries.mapM (readEntry path contents.toArray)).run.value =
      .ok (files.map fun f => DexEntry.ofFile? f.1 f.2) := by
    rw [value_mapM_eq_ok_iff, List.forall₂_map_right_iff]
    exact hof.imp fun e f h => readEntry_eq_ok_iff.mpr (readsAs_of_isOf h)
  have only := (selects_sort distinct).unique selects fun _ => Iff.rfl
  calc (readArchive path contents).run.value
      = (parseEntries path
          ((files.map fun f => DexEntry.ofFile? f.1 f.2).filterMap id)).run.value := by
        rw [readArchive, value_run_bind, opened]
        refine (value_run_bind _ _).trans ?_
        rw [read]
        rfl
    _ = (parseEntries path (found files)).run.value := by rw [List.filterMap_map]; rfl
    _ = parsed path selected := by rw [value_parseEntries, only]

end

end Input

/-- **The place of a file in the archive makes no difference.** Of an archive with files of distinct
names, those with the name of a dex file are selected, and are in order by their numbers, then by
the bytes of their names. They are read as they stand there: without any the archive is no
application, and one that cannot be read is a failure. An archive of the same files in any other
order gives the same. Of several failures the first one is reported; the list of dex files, and
whether there is a failure at all, do not depend on that choice. -/
theorem readArchive_independent_of_order {contents : Bytes} {files : List (String × Bytes)}
    (listed : Zip.Lists contents.toArray files) (distinct : (files.map (·.1)).Nodup)
    (path : String) :
    ∃ selected, DexEntry.Selects files selected ∧
      (∀ dexs, (Input.readArchive path contents).run.value = .ok dexs ↔
        selected ≠ [] ∧
          List.Forall₂ (fun d dex => Dex.read d.contents = .ok dex) selected dexs) ∧
      ((Input.readArchive path contents).run.value = .error (.noDex path) ↔ selected = []) ∧
      ((∃ cause, (Input.readArchive path contents).run.value = .error (.dex cause)) ↔
        ∃ d ∈ selected, ∃ cause, Dex.read d.contents = .error cause) ∧
      ∀ contents' files', Zip.Lists contents'.toArray files' → files'.Perm files →
        (Input.readArchive path contents').run.value =
          (Input.readArchive path contents).run.value := by
  have selects := DexEntry.selects_sort distinct
  refine ⟨_, selects, ?_⟩
  rw [Input.value_readArchive listed distinct selects path]
  refine ⟨fun dexs => Input.parsed_eq_ok_iff, Input.parsed_eq_noDex_iff,
    Input.exists_parsed_eq_dex_iff, ?_⟩
  intro contents' files' listed' perm
  have distinct' : (files'.map (·.1)).Nodup := (perm.map _).nodup_iff.mpr distinct
  have selects' := DexEntry.selects_sort distinct'
  rw [Input.value_readArchive listed' distinct' selects' path,
    selects'.unique selects fun _ => perm.mem_iff]

/-! ## Files with one number -/

/-- Three files with the number one, a file in another directory, and one whose number is too
large. -/
def crowded : List (String × Bytes) :=
  [("classes1.dex", classFile (some 1)), ("assets/classes.dex", [0]),
    (DexEntry.primaryName, classFile none), ("classes4294967296.dex", []),
    ("classes01.dex", classFile (some 0))]

/-- The three files, by name. -/
def crowdedSelection : List DexEntry :=
  [⟨1, DexEntry.primaryName, classFile none⟩, ⟨1, "classes01.dex", classFile (some 0)⟩,
    ⟨1, "classes1.dex", classFile (some 1)⟩]

theorem read_classFile_first : Dex.read (classFile (some 0)) = .ok (classDex (some 0)) := by
  decide +kernel

/-- Forwards and backwards, the archive is read as its three dex files by name. -/
theorem crowded_read_by_name :
    Zip.Lists (Zip.archive (crowded.map .named)).toArray crowded ∧
      Zip.Lists (Zip.archive (crowded.reverse.map .named)).toArray crowded.reverse ∧
      (crowded.map (·.1)).Nodup ∧
      (Input.readArchive "a.apk" (Zip.archive (crowded.map .named))).run.value =
        .ok [classDex none, classDex (some 0), classDex (some 1)] ∧
      (Input.readArchive "a.apk" (Zip.archive (crowded.reverse.map .named))).run.value =
        .ok [classDex none, classDex (some 0), classDex (some 1)] := by
  have listed : Zip.Lists (Zip.archive (crowded.map .named)).toArray crowded :=
    Zip.lists_archive ⟨by decide, by decide, by decide +kernel⟩
  have backwards : Zip.Lists (Zip.archive (crowded.reverse.map .named)).toArray crowded.reverse :=
    Zip.lists_archive ⟨by decide, by decide, by decide +kernel⟩
  have distinct : (crowded.map (·.1)).Nodup := by decide
  obtain ⟨selected, selects, ok, -, -, same⟩ :=
    readArchive_independent_of_order listed distinct "a.apk"
  have names : DexEntry.Selects crowded crowdedSelection :=
    DexEntry.selects_of_perm (by decide +kernel) (by decide +kernel)
  obtain rfl : selected = crowdedSelection := selects.unique names fun _ => Iff.rfl
  have read : (Input.readArchive "a.apk" (Zip.archive (crowded.map .named))).run.value =
      .ok [classDex none, classDex (some 0), classDex (some 1)] := by
    rw [ok]
    refine ⟨List.cons_ne_nil _ _, ?_⟩
    exact .cons read_classFile_none
      (.cons read_classFile_first (.cons read_classFile_second .nil))
  exact ⟨listed, backwards, distinct, read, (same _ _ backwards crowded.reverse_perm).trans read⟩

end PermissionAudit
