import Mathlib.Data.List.Basic
import PermissionAudit.FileSystem.Basic
import PermissionAudit.Proofs.Sequence.Checked
import PermissionAudit.Proofs.Text.Fields

/-!
Files in a directory. A name without a slash that is joined to a directory gives the path
of something right in it; writing to that path changes what is at this one place and
nothing else, and the directory stays where it is.
-/

namespace PermissionAudit

/-! ## Paths -/

namespace FilePath

/-- The path of something in the directory, under the name. -/
structure IsChild (p directory : FilePath) (name : String) : Prop where
  absolute_eq : p.absolute = directory.absolute
  parts_eq : p.parts = directory.parts ++ [name]
  not_directory : p.directory = false

/-- The parts of a text with a slash in it are those on its two sides. -/
theorem parts_append_slash (front behind : List Char) :
    (ofString (String.ofList (front ++ '/' :: behind))).parts =
      (ofString (String.ofList front)).parts ++ (ofString (String.ofList behind)).parts := by
  simp only [ofString, String.toList_ofList, Fields.split_eq_splitOn,
    List.splitOn_append_cons_self, List.filter_append, List.map_append]

theorem parts_of_no_slash {name : String} (slash : '/' ∉ name.toList) (hne : name ≠ "") :
    (ofString name).parts = [name] := by
  have nonempty : name.toList ≠ [] := by simpa using hne
  simp [ofString, Fields.split_eq_splitOn, List.splitOn_eq_singleton slash, nonempty]

/-- Joining puts one slash between a directory that has a text and a name that has none. -/
theorem exists_front_of_join {directory name : String} (given : directory ≠ "")
    (relative : name.toList.head? ≠ some '/') :
    ∃ front, join directory name = String.ofList (front ++ '/' :: name.toList) ∧
      (front ++ ['/']).head? = directory.toList.head? ∧
      (ofString (String.ofList front)).parts = (ofString directory).parts := by
  have nonempty : directory.toList ≠ [] := by simpa using given
  have not_empty : directory.isEmpty ≠ true := by simpa using given
  by_cases ended : directory.toList.getLast? = some '/'
  · obtain ⟨front, hfront⟩ := List.getLast?_eq_some_iff.mp ended
    refine ⟨front, ?_, by rw [hfront], ?_⟩
    · rw [join, if_neg (by simp [relative, not_empty]), if_pos ended, ← String.toList_inj,
        String.toList_append, hfront, String.toList_ofList, List.append_assoc,
        List.singleton_append]
    · have nothing : (ofString (String.ofList [])).parts = [] := rfl
      have both := parts_append_slash front []
      rw [← hfront, String.ofList_toList, nothing, List.append_nil] at both
      exact both.symm
  · refine ⟨directory.toList, ?_, ?_, by rw [String.ofList_toList]⟩
    · rw [join, if_neg (by simp [relative, not_empty]), if_neg ended, ← String.toList_inj]
      simp
    · rw [List.head?_append_of_ne_nil _ nonempty]

/-- A name joined to a directory leads into it. -/
theorem isChild_join (directory : String) {name : String} (slash : '/' ∉ name.toList)
    (hne : name ≠ "") : IsChild (ofString (join directory name)) (ofString directory) name := by
  have nonempty : name.toList ≠ [] := by simpa using hne
  have relative : name.toList.head? ≠ some '/' := fun h => slash (List.mem_of_head? h)
  have last : name.toList.getLast? ≠ some '/' := fun h => slash (List.mem_of_getLast? h)
  by_cases given : directory = ""
  · subst given
    have joined : join "" name = name := if_pos (.inr rfl)
    rw [joined]
    refine ⟨?_, parts_of_no_slash slash hne, ?_⟩
    · simp [ofString, relative]
    · simp [ofString, last]
  · obtain ⟨front, joined, head, parts⟩ := exists_front_of_join given relative
    rw [joined]
    refine ⟨?_, ?_, ?_⟩
    · have kept : (front ++ '/' :: name.toList).head? = directory.toList.head? := by
        rw [← head, List.head?_append, List.head?_append, List.head?_cons, List.head?_cons]
      simp only [ofString, String.toList_ofList, kept]
    · rw [parts_append_slash, String.ofList_toList, parts_of_no_slash slash hne, parts]
    · have kept : (front ++ '/' :: name.toList).getLast? = name.toList.getLast? := by
        rw [List.append_cons, List.getLast?_append_of_ne_nil _ nonempty]
      simp only [ofString, String.toList_ofList, kept, last, decide_false]

end FilePath

/-! ## Places -/

namespace FileSystem

/-- Where a path leads whose parts are all directories. -/
def directoryAt (fs : FileSystem) (path : String) : Except FileFault Location :=
  fs.follow (fs.start (.ofString path)) (FilePath.ofString path).parts

/-- A node put somewhere is found there, except in place of the current directory or of one
above it. -/
theorem node?_set_self (fs : FileSystem) (here : Location) (node : FileNode) :
    (fs.set here node).node? here =
      if here.isPrefixOf fs.current then some .directory else some node := by
  have gone : (fs.nodes.filter fun n => n.1 ≠ here).lookup here = none := by
    rw [List.lookup_eq_none_iff]
    intro n hn
    have other : n.1 ≠ here := by simpa using (List.mem_filter.mp hn).2
    exact bne_iff_ne.mpr other.symm
  simp only [node?, set, List.lookup_append, gone, Option.none_or, List.lookup_cons,
    beq_self_eq_true]

theorem node?_set_of_ne {fs : FileSystem} {here location : Location} (h : location ≠ here)
    (node : FileNode) : (fs.set here node).node? location = fs.node? location := by
  have others : (fs.nodes.filter fun n => n.1 ≠ here).lookup location =
      fs.nodes.lookup location := by
    induction fs.nodes with
    | nil => rfl
    | cons n rest ih =>
      by_cases gone : n.1 = here
      · have other : (location == n.1) = false := by simpa [gone] using h
        rw [List.filter_cons_of_neg (by simp [gone]), ih, List.lookup_cons, other]
      · rw [List.filter_cons_of_pos (by simp [gone]), List.lookup_cons, List.lookup_cons, ih]
  have last : [(here, node)].lookup location = none := by
    have other : (location == here) = false := by simpa using h
    rw [List.lookup_cons, other, List.lookup_nil]
  simp only [node?, set, List.lookup_append, others, last, Option.or_none]

/-- A file that is put somewhere makes no directory. -/
theorem node?_of_set_file {fs : FileSystem} {here location : Location} {contents : Bytes}
    (h : (fs.set here (.file contents)).node? location = some .directory) :
    fs.node? location = some .directory := by
  by_cases moved : location = here
  · subst moved
    rw [node?_set_self] at h
    by_cases above : location.isPrefixOf fs.current = true
    · rw [node?, if_pos above]
    · rw [if_neg above] at h
      cases h
  · rwa [node?_set_of_ne moved] at h

theorem node?_of_follow_cons {fs : FileSystem} {here last : Location} {name : String}
    {rest : List String} (followed : fs.follow here (name :: rest) = .ok last) :
    fs.node? here = some .directory := by
  rw [follow] at followed
  cases found : fs.node? here with
  | none =>
    rw [found] at followed
    cases followed
  | some node =>
    cases node with
    | file contents =>
      rw [found] at followed
      cases followed
    | directory => rfl

theorem follow_cons {fs : FileSystem} {here : Location} (found : fs.node? here = some .directory)
    (name : String) (rest : List String) :
    fs.follow here (name :: rest) =
      if name = "." then fs.follow here rest
      else if name = ".." then fs.follow here.dropLast rest
      else checkName name >>= fun _ => fs.follow (here ++ [name]) rest := by
  rw [follow, found]

/-- What leads somewhere among fewer directories leads there among more. -/
theorem follow_of_directories {fs fs' : FileSystem}
    (h : ∀ location, fs'.node? location = some .directory → fs.node? location = some .directory)
    {here last : Location} {names : List String} (followed : fs'.follow here names = .ok last) :
    fs.follow here names = .ok last := by
  induction names generalizing here with
  | nil => exact followed
  | cons name rest ih =>
    have found := node?_of_follow_cons followed
    rw [follow_cons found] at followed
    rw [follow_cons (h here found)]
    by_cases dot : name = "."
    · rw [if_pos dot] at followed ⊢
      exact ih followed
    · rw [if_neg dot] at followed ⊢
      by_cases dots : name = ".."
      · rw [if_pos dots] at followed ⊢
        exact ih followed
      · rw [if_neg dots] at followed ⊢
        obtain ⟨_, short, followed⟩ := bind_eq_ok_iff.mp followed
        exact bind_eq_ok_iff.mpr ⟨_, short, ih followed⟩

/-- Where a path in a directory is, if it has a place. -/
theorem directoryAt_of_place {fs : FileSystem} {directory path name : String} {here : Location}
    {named : Option String}
    (child : FilePath.IsChild (.ofString path) (.ofString directory) name)
    (placed : fs.place (.ofString path) = .ok (here, named)) :
    fs.directoryAt directory = .ok here ∧ ∀ last, named = some last → last = name := by
  obtain ⟨_, -, placed⟩ := bind_eq_ok_iff.mp placed
  rw [child.parts_eq, List.getLast?_concat] at placed
  obtain ⟨there, followed, placed⟩ := bind_eq_ok_iff.mp placed
  rw [List.dropLast_concat, start, child.absolute_eq] at followed
  cases found : fs.node? there with
  | none =>
    rw [found] at placed
    cases placed
  | some node =>
    cases node with
    | file contents =>
      rw [found] at placed
      cases placed
    | directory =>
      rw [found] at placed
      dsimp only at placed
      split at placed
      · cases placed
        exact ⟨followed, fun last h => by cases h⟩
      · cases placed
        exact ⟨followed, fun last h => (Option.some.inj h).symm⟩

/-- Writing to a path in a directory puts the file there, under its name. -/
theorem eq_set_of_write {fs fs' : FileSystem} {directory path name : String} {contents : Bytes}
    (child : FilePath.IsChild (.ofString path) (.ofString directory) name)
    (written : fs.write path contents = .ok fs') :
    ∃ here, fs.directoryAt directory = .ok here ∧ fs' = fs.set (here ++ [name]) (.file contents) := by
  obtain ⟨⟨here, named⟩, placed, written⟩ := bind_eq_ok_iff.mp written
  obtain ⟨followed, named_eq⟩ := directoryAt_of_place child placed
  cases named with
  | none => cases written
  | some last =>
    obtain rfl := named_eq last rfl
    refine ⟨here, followed, ?_⟩
    dsimp only at written
    rw [child.not_directory] at written
    obtain ⟨_, -, written⟩ := bind_eq_ok_iff.mp written
    split at written
    · cases written
    · obtain ⟨_, -, written⟩ := bind_eq_ok_iff.mp written
      exact (Except.ok.inj written).symm

end FileSystem

end PermissionAudit
