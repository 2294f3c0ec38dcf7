import PermissionAudit.Text.Fields

/-!
Paths of files: names divided by slashes, from the root or from the current
directory.
-/

namespace PermissionAudit

structure FilePath where
  /-- Whether the path starts at the root. -/
  absolute : Bool
  /-- The names, dots included. -/
  parts : List String
  /-- Whether a slash stands at the end, so that only a directory can be meant. -/
  directory : Bool
  /-- The number of bytes that the path is written with. -/
  size : Nat
deriving DecidableEq

namespace FilePath

/-- The path that a text denotes. -/
def ofString (s : String) : FilePath where
  absolute := s.toList.head? = some '/'
  parts := ((Fields.split '/' s.toList).filter fun part => !part.isEmpty).map String.ofList
  directory := s.toList.getLast? = some '/'
  size := s.utf8ByteSize

/-- A path without names and without a start. -/
def isEmpty (p : FilePath) : Bool := !p.absolute && p.parts.isEmpty

/-- The names that tell where a path leads: single dots say nothing, except at the front of a
relative path. -/
def names (p : FilePath) : List String :=
  match p.absolute, p.parts with
  | false, "." :: rest => "." :: rest.filter (· ≠ ".")
  | _, parts => parts.filter (· ≠ ".")

theorem length_names_le (p : FilePath) : p.names.length ≤ p.parts.length := by
  unfold names
  split
  · rename_i h
    rw [h]
    simpa using List.length_filter_le _ _
  · exact List.length_filter_le _ _

/-- The path of the directory that holds a file. -/
def parent? (p : FilePath) : Option FilePath :=
  if p.names.isEmpty then none
  else
    let parts := p.names.dropLast
    some ⟨p.absolute, parts, false, parts.foldl (fun size name => size + name.utf8ByteSize + 1) 0⟩

theorem length_parts_parent?_lt {p q : FilePath} (h : p.parent? = some q) :
    q.parts.length < p.parts.length := by
  unfold parent? at h
  split at h
  · simp at h
  · rename_i hne
    have hpos : 0 < p.names.length := by
      cases hn : p.names with
      | nil => simp [hn] at hne
      | cons => simp
    have := p.length_names_le
    simp only [Option.some.injEq] at h
    subst h
    simp only [List.length_dropLast]
    omega

/-- The name of the file, unless the path ends in dots. -/
def fileName? (p : FilePath) : Option String :=
  match p.names.getLast? with
  | some name => if name = "." ∨ name = ".." then none else some name
  | none => none

/-- What follows the last dot of the file name. A dot at the front of the name does not
count. -/
def extension? (p : FilePath) : Option String := do
  let name ← p.fileName?
  let after := name.toList.reverse.takeWhile (· ≠ '.')
  let before := name.toList.length - after.length - 1
  if after.length = name.toList.length ∨ before = 0 then none
  else some (String.ofList after.reverse)

/-- Whether the file name ends in the given extension, in letters of either case. -/
def hasExtension (p : FilePath) (extension : String) : Bool :=
  p.extension?.any fun e => e.toList.map Char.toLower = extension.toList

/-- The path of a file in a directory. -/
def join (directory name : String) : String :=
  if name.toList.head? = some '/' ∨ directory.isEmpty then name
  else if directory.toList.getLast? = some '/' then directory ++ name
  else directory ++ "/" ++ name

end FilePath

end PermissionAudit
