import PermissionAudit.Proofs.Application.Output
import PermissionAudit.Proofs.FileSystem.Directory
import PermissionAudit.Proofs.Registry.Origin

/-!
Flow graphs stay in the output directory. The names of classes and methods are those of
the file that is analysed, which may hold any text. A class is known by the name used in
programs, where slashes have become dots, and in the name of a method they are replaced;
so the name of a document has no slash, and what is written under it is in the directory.
The report has a name of another kind, and no document takes its place.
-/

namespace PermissionAudit

/-! ## Names -/

theorem Fields.not_mem_replace {old new : Char} (h : new ≠ old) (s : String) :
    old ∉ (replace old new s).toList := by
  rw [replace, String.toList_ofList, List.mem_map]
  rintro ⟨c, -, hc⟩
  by_cases same : c = old
  · rw [if_pos same] at hc
    exact h hc
  · rw [if_neg same] at hc
    exact same hc

theorem Descriptor.slash_not_mem_sourceName (t : Descriptor) : '/' ∉ t.sourceName.toList := by
  induction t with
  | void | boolean | byte | short | char | int | long | float | double => decide
  | array dimensions element ih =>
    rw [sourceName, String.toList_append, List.mem_append, not_or, String.toList_join]
    refine ⟨ih, ?_⟩
    rw [List.mem_flatMap]
    rintro ⟨brackets, hb, hc⟩
    obtain rfl := List.eq_of_mem_replicate hb
    exact absurd hc (by decide)
  | object name => exact Fields.not_mem_replace (by decide) name

theorem slash_not_mem_simpleName {className : String} (h : '/' ∉ className.toList) :
    '/' ∉ (simpleName className).toList := by
  rw [simpleName, String.toList_ofList, List.mem_reverse]
  intro hc
  exact h (List.mem_reverse.mp ((List.takeWhile_sublist _).subset hc))

namespace FileName

theorem slash_not_mem_sanitize (methodName : String) : '/' ∉ (sanitize methodName).toList := by
  unfold sanitize
  split
  · decide
  · split
    · decide
    · rw [String.toList_ofList, List.mem_map]
      rintro ⟨c, -, hc⟩
      by_cases reserved : isReserved c = true
      · rw [if_pos reserved] at hc
        exact absurd hc (by decide)
      · rw [if_neg reserved] at hc
        exact reserved (hc ▸ rfl)

/-- What the name of a document has and has not. -/
structure IsDocument (name : String) : Prop where
  no_slash : '/' ∉ name.toList
  extension : ".dot".toList <:+ name.toList
  underscore : '_' ∈ name.toList

theorem isDocument_flowGraph {simpleClassName : String} (h : '/' ∉ simpleClassName.toList)
    (methodName : String) : IsDocument (flowGraph simpleClassName methodName) where
  no_slash := by
    have sanitized := slash_not_mem_sanitize methodName
    simp [flowGraph, h, sanitized]
  extension := by
    rw [flowGraph, String.toList_append]
    exact List.suffix_append _ _
  underscore := by simp [flowGraph]

namespace IsDocument

variable {name : String}

theorem ne_of_no_underscore (h : IsDocument name) {other : String} (plain : '_' ∉ other.toList) :
    name ≠ other := by
  rintro rfl
  exact plain h.underscore

theorem ne_usage (h : IsDocument name) : name ≠ usage := by
  rintro rfl
  exact absurd h.extension (by decide)

theorem isChild_join (h : IsDocument name) (directory : String) :
    FilePath.IsChild (.ofString (FilePath.join directory name)) (.ofString directory) name :=
  FilePath.isChild_join directory h.no_slash (h.ne_of_no_underscore (by decide))

end IsDocument

end FileName

/-- Every document of a registered class has such a name, whatever the texts of the file are. -/
theorem Registry.isDocument_of_mem {dexs : List Dex} {exclusions : List String} {c : ClassInfo}
    (hc : c ∈ (ofDexs dexs exclusions).value.classes) (methodName : String) :
    FileName.IsDocument (FileName.flowGraph c.simpleName methodName) := by
  obtain ⟨origins, registered⟩ := exists_registered dexs exclusions
  obtain ⟨-, d, -, made⟩ := registered.exists_definition_of_mem hc
  obtain ⟨t, -, named⟩ := made.name
  apply FileName.isDocument_flowGraph
  apply slash_not_mem_simpleName
  rw [← named]
  exact t.slash_not_mem_sourceName

/-! ## Writing -/

/-- From the first file system to the second, only files right in the directory have changed,
under names of the given kind. -/
structure ChangedIn (directory : String) (names : String → Prop) (fs fs' : FileSystem) : Prop where
  current_eq : fs'.current = fs.current
  directories : ∀ location, fs'.node? location = some .directory →
    fs.node? location = some .directory
  elsewhere : ∀ location, fs'.node? location = fs.node? location ∨
    ∃ here name, fs.directoryAt directory = .ok here ∧ names name ∧ location = here ++ [name]

namespace ChangedIn

variable {directory : String} {names : String → Prop} {fs fs' fs'' : FileSystem}

theorem refl (fs : FileSystem) : ChangedIn directory names fs fs where
  current_eq := rfl
  directories _ h := h
  elsewhere _ := .inl rfl

/-- No directory appears, so the path leads where it led before. -/
theorem directoryAt (h : ChangedIn directory names fs fs') {path : String} {here : Location}
    (followed : fs'.directoryAt path = .ok here) : fs.directoryAt path = .ok here := by
  rw [FileSystem.directoryAt, FileSystem.start, h.current_eq] at followed
  exact FileSystem.follow_of_directories h.directories followed

theorem trans (h : ChangedIn directory names fs fs') (h' : ChangedIn directory names fs' fs'') :
    ChangedIn directory names fs fs'' where
  current_eq := h'.current_eq.trans h.current_eq
  directories location hd := h.directories location (h'.directories location hd)
  elsewhere location := by
    rcases h'.elsewhere location with same | ⟨here, name, followed, hname, rfl⟩
    · rw [same]
      exact h.elsewhere location
    · exact .inr ⟨here, name, h.directoryAt followed, hname, rfl⟩

theorem set_file {here : Location} {name : String} (followed : fs.directoryAt directory = .ok here)
    (hname : names name) (contents : Bytes) :
    ChangedIn directory names fs (fs.set (here ++ [name]) (.file contents)) where
  current_eq := rfl
  directories _ h := FileSystem.node?_of_set_file h
  elsewhere location := by
    by_cases there : location = here ++ [name]
    · exact .inr ⟨here, name, followed, hname, there⟩
    · exact .inl (FileSystem.node?_set_of_ne there _)

/-- One document, whether it can be written or not. -/
theorem tryWrite {path name : String}
    (child : FilePath.IsChild (.ofString path) (.ofString directory) name) (hname : names name)
    (contents : Bytes) : ChangedIn directory names fs (fs.tryWrite (path, contents)) := by
  unfold FileSystem.tryWrite
  cases written : fs.write path contents with
  | error fault => exact refl fs
  | ok after =>
    obtain ⟨here, followed, rfl⟩ := FileSystem.eq_set_of_write child written
    exact set_file followed hname contents

/-- All documents, one after another. -/
theorem handOver {docs : List (String × String)}
    (named : ∀ d ∈ docs, FileName.IsDocument d.1 ∧ names d.1) :
    ChangedIn directory names fs
      (Detection.handOver (some (GraphSink.directory directory)) fs docs) := by
  rw [handOver_directory, List.foldl_map]
  refine List.foldlRecOn (motive := ChangedIn directory names fs) docs _ (refl fs) ?_
  intro reached before d hd
  obtain ⟨document, hname⟩ := named d hd
  exact before.trans (tryWrite (document.isChild_join directory) hname _)

/-- What is in the directory under a name of another kind stays. -/
theorem node?_of_other_name (h : ChangedIn directory names fs fs') {name : String}
    (other : ¬ names name) (here : Location) :
    fs'.node? (here ++ [name]) = fs.node? (here ++ [name]) := by
  rcases h.elsewhere (here ++ [name]) with same | ⟨there, name', -, hname, heq⟩
  · exact same
  · obtain ⟨-, heq⟩ := List.append_inj' heq rfl
    obtain rfl := List.singleton_injective heq
    exact absurd hname other

end ChangedIn

theorem Detection.exists_method_of_mem_documents {program : Program} {keying : NodeKeying}
    {selection : Selection} {classes : List ClassInfo} {d : String × String}
    (hd : d ∈ documents program keying selection classes) :
    ∃ c ∈ classes, ∃ m ∈ c.methods, d.1 = FileName.flowGraph c.simpleName m.name := by
  obtain ⟨c, hc, hd⟩ := List.mem_flatMap.mp hd
  obtain ⟨m, hm, hd⟩ := List.mem_flatMap.mp hd
  refine ⟨c, hc, m, (selectedMethods_sublist selection c).subset hm, ?_⟩
  unfold methodDocuments at hd
  split at hd
  · exact absurd hd List.not_mem_nil
  · obtain rfl := List.mem_singleton.mp hd
    rfl

/-- **Flow graphs stay in the output directory.** Whatever texts the files hold, the name of the
document of each method leads right into the directory, and not to the report. A run that writes
documents changes what is there under these names, and nothing else. -/
theorem flowGraph_files_contained (dexs : List Dex) (exclusions : List String) (output : String) :
    let registry := (Registry.ofDexs dexs exclusions).value
    let report := FilePath.join output FileName.usage
    (∀ c ∈ registry.classes, ∀ m ∈ c.methods,
      let name := FileName.flowGraph c.simpleName m.name
      let path := FilePath.join output name
      FileName.IsDocument name ∧ name ≠ "." ∧ name ≠ ".." ∧ name ≠ FileName.usage ∧
      FilePath.IsChild (.ofString path) (.ofString output) name ∧
      (FilePath.ofString path).parts ≠ (FilePath.ofString report).parts) ∧
    ∀ index selection keying fs,
      let config : Detection.Config FileSystem :=
        ⟨index, selection, keying, some (.directory output)⟩
      let after := (Detection.run registry.toProgram config fs).value.2
      (∀ location, after.node? location = fs.node? location ∨
        ∃ here, fs.directoryAt output = .ok here ∧ ∃ c ∈ registry.classes, ∃ m ∈ c.methods,
          location = here ++ [FileName.flowGraph c.simpleName m.name]) ∧
      ∀ here, after.node? (here ++ [FileName.usage]) = fs.node? (here ++ [FileName.usage]) := by
  intro registry report
  refine ⟨fun c hc m _ => ?_, fun index selection keying fs => ?_⟩
  · have document := Registry.isDocument_of_mem hc m.name
    have child := document.isChild_join output
    have reported : FilePath.IsChild (.ofString report) (.ofString output) FileName.usage :=
      FilePath.isChild_join output (by decide) (by decide)
    refine ⟨document, document.ne_of_no_underscore (by decide),
      document.ne_of_no_underscore (by decide), document.ne_usage, child, ?_⟩
    rw [child.parts_eq, reported.parts_eq]
    intro same
    exact document.ne_usage (List.singleton_injective (List.append_cancel_left same))
  · intro config after
    have handed : after = Detection.handOver (some (.directory output)) fs
        (Detection.documents registry.toProgram keying selection registry.classes) :=
      Detection.run_documents rfl config fs
    have changed : ChangedIn output (fun name => ∃ c ∈ registry.classes, ∃ m ∈ c.methods,
        name = FileName.flowGraph c.simpleName m.name) fs after := by
      rw [handed]
      apply ChangedIn.handOver
      intro d hd
      obtain ⟨c, hc, m, hm, hname⟩ := Detection.exists_method_of_mem_documents hd
      exact ⟨hname ▸ Registry.isDocument_of_mem hc m.name, c, hc, m, hm, hname⟩
    refine ⟨fun location => ?_, changed.node?_of_other_name ?_⟩
    · rcases changed.elsewhere location with same | ⟨here, _, followed, ⟨c, hc, m, hm, rfl⟩, there⟩
      · exact .inl same
      · exact .inr ⟨here, followed, c, hc, m, hm, there⟩
    · rintro ⟨c, hc, m, -, taken⟩
      exact (Registry.isDocument_of_mem hc m.name).ne_usage taken.symm

/-- A file whose texts try to lead out of a directory: the class `L../../A;` with the method
`/../../b`. -/
def climbingDex : Dex where
  header := ⟨35, 0, [], 0, 0, 0, ⟨0, 0⟩, ⟨0, 0⟩, ⟨0, 0⟩, ⟨0, 0⟩, ⟨0, 0⟩, ⟨0, 0⟩⟩
  raw :=
    [9, 0x4C, 0x2E, 0x2E, 0x2F, 0x2E, 0x2E, 0x2F, 0x41, 0x3B, 0,
      8, 0x2F, 0x2E, 0x2E, 0x2F, 0x2E, 0x2E, 0x2F, 0x62, 0,
      0, 0, 0, 0, 0, 0, 0, 0, 0, 0, 0, 0, 1, 0, 0, 0, 0x0E, 0]
  strings := [0, 11]
  types := [0]
  protos := []
  fields := []
  methods := [⟨0, 0, 1⟩]
  classes := [⟨0, 0, none, [], some ⟨[], [⟨0, 0, some 21⟩]⟩⟩]

/-- An output directory with a report of an earlier run in it. -/
def reportedFiles : FileSystem where
  current := ["home"]
  nodes := [(["home", "out"], .directory), (["home", "out", FileName.usage], .file [0x61])]
  refusals := []

/-- The document is written in the directory, beside the report, and not where the texts would
lead. -/
theorem climbingDex_contained :
    let registry := (Registry.ofDexs [climbingDex] []).value
    let config : Detection.Config FileSystem := ⟨.ofRows [], .all, .label, some (.directory "out")⟩
    let after := (Detection.run registry.toProgram config reportedFiles).value.2
    registry.classes = [⟨"......A", none, [], false, [⟨0, "......A", "/../../b", true⟩]⟩] ∧
    FilePath.IsChild (.ofString "out/A__.._.._b.dot") (.ofString "out") "A__.._.._b.dot" ∧
    (after.node? ["home", "out", "A__.._.._b.dot"]).isSome ∧
    after.node? ["home", "out", FileName.usage] = some (.file [0x61]) ∧
    after.node? ["home", "b.dot"] = none := by
  intro registry config after
  have classes : registry.classes =
      [⟨"......A", none, [], false, [⟨0, "......A", "/../../b", true⟩]⟩] := by decide +kernel
  obtain ⟨named, run⟩ := flowGraph_files_contained [climbingDex] [] "out"
  obtain ⟨elsewhere, report⟩ := run (.ofRows []) .all .label reportedFiles
  have hc : _ ∈ registry.classes := classes ▸ List.mem_singleton_self _
  obtain ⟨-, -, -, -, child, -⟩ := named _ hc _ (List.mem_singleton_self _)
  refine ⟨classes, child, by decide +kernel, report ["home", "out"], ?_⟩
  rcases elsewhere ["home", "b.dot"] with same | ⟨here, -, c, hc, m, hm, there⟩
  · exact same
  · have hc' : c ∈ registry.classes := hc
    rw [classes] at hc'
    obtain rfl := List.mem_singleton.mp hc'
    obtain rfl := List.mem_singleton.mp hm
    have last := congrArg List.getLast? there
    rw [List.getLast?_concat] at last
    exact absurd last (by decide +kernel)

end PermissionAudit
