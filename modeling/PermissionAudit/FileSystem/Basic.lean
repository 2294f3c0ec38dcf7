import PermissionAudit.Bytes.Basic
import PermissionAudit.FileSystem.Fault
import PermissionAudit.FileSystem.Path

/-!
A file system as a value. Operations that change it return the new one, and an
operation that fails leaves it as it was.
-/

namespace PermissionAudit

/-- Names from the root down. -/
abbrev Location := List String

inductive FileNode where
  | file (contents : Bytes)
  | directory
deriving DecidableEq

/-- What a location is opened for. -/
inductive Access where
  | read
  | write
deriving DecidableEq

structure FileSystem where
  /-- Where relative paths start. -/
  current : Location
  nodes : List (Location × FileNode)
  /-- Locations that the system does not open, with its answer. -/
  refusals : List ((Access × Location) × FileFault)
deriving DecidableEq

namespace FileSystem

/-- An empty current directory. -/
def empty (current : Location) : FileSystem := ⟨current, [], []⟩

/-- What is at a location. The current directory and those above it are always there. -/
def node? (fs : FileSystem) (here : Location) : Option FileNode :=
  if here.isPrefixOf fs.current then some .directory else fs.nodes.lookup here

/-- Names are limited to this many bytes. -/
def nameLimit : Nat := 255

def checkName (name : String) : Except FileFault Unit :=
  if nameLimit < name.utf8ByteSize then .error .nameTooLong else .ok ()

/-- Follows names from a location. All but the last have to be there. -/
def follow (fs : FileSystem) : Location → List String → Except FileFault Location
  | here, [] => .ok here
  | here, name :: rest =>
    match fs.node? here with
    | none => .error .notFound
    | some (.file _) => .error .notDirectory
    | some .directory =>
      if name = "." then fs.follow here rest
      else if name = ".." then fs.follow here.dropLast rest
      else do
        checkName name
        fs.follow (here ++ [name]) rest

/-- Paths are limited to less than this many bytes. -/
def pathLimit : Nat := 4096

/-- Paths with a zero character and long paths are refused, and the empty path leads
nowhere. -/
def checkPath (p : FilePath) : Except FileFault Unit :=
  if p.parts.any (·.toList.contains '\x00') then .error .zeroInPath
  else if pathLimit ≤ p.size then .error .nameTooLong
  else if p.isEmpty then .error .notFound
  else .ok ()

def start (fs : FileSystem) (p : FilePath) : Location := if p.absolute then [] else fs.current

/-- Where a path leads. -/
def locate (fs : FileSystem) (p : FilePath) : Except FileFault Location := do
  checkPath p
  fs.follow (fs.start p) (if p.directory then p.parts ++ ["."] else p.parts)

/-- What a path leads to. -/
def stat (fs : FileSystem) (p : FilePath) : Except FileFault FileNode := do
  match fs.node? (← fs.locate p) with
  | some node => return node
  | none => throw .notFound

def contains (fs : FileSystem) (path : String) : Bool :=
  match fs.stat (.ofString path) with
  | .ok _ => true
  | .error _ => false

def isFile (fs : FileSystem) (path : String) : Bool :=
  match fs.stat (.ofString path) with
  | .ok (.file _) => true
  | _ => false

def isDirectory (fs : FileSystem) (p : FilePath) : Bool :=
  match fs.stat p with
  | .ok .directory => true
  | _ => false

/-- Whether the system opens a location. -/
def checkAccess (fs : FileSystem) (access : Access) (here : Location) : Except FileFault Unit :=
  match fs.refusals.lookup (access, here) with
  | some fault => .error fault
  | none => .ok ()

/-- The contents of a file. -/
def read (fs : FileSystem) (path : String) : Except FileFault Bytes := do
  let here ← fs.locate (.ofString path)
  match fs.node? here with
  | some (.file contents) =>
    fs.checkAccess .read here
    return contents
  | some .directory => throw .isDirectory
  | none => throw .notFound

/-- The directory and the name of something that may not be there yet. No name stands for a
path that can only be a directory which is there: the root, or a path that ends in dots. -/
def place (fs : FileSystem) (p : FilePath) : Except FileFault (Location × Option String) := do
  checkPath p
  match p.parts.getLast? with
  | none => return ([], none)
  | some name =>
    let here ← fs.follow (fs.start p) p.parts.dropLast
    match fs.node? here with
    | none => throw .notFound
    | some (.file _) => throw .notDirectory
    | some .directory =>
      if name = "." ∨ name = ".." then return (here, none) else return (here, some name)

/-- Puts a node at a location, in place of what is there. -/
def set (fs : FileSystem) (here : Location) (node : FileNode) : FileSystem :=
  { fs with nodes := fs.nodes.filter (fun n => n.1 ≠ here) ++ [(here, node)] }

/-- Writes a file, which is made if it is not there. A slash at the end is noticed before the
name is. -/
def write (fs : FileSystem) (path : String) (contents : Bytes) : Except FileFault FileSystem := do
  let p := FilePath.ofString path
  match ← fs.place p with
  | (_, none) => throw .isDirectory
  | (here, some name) =>
    if p.directory then throw .isDirectory
    checkName name
    match fs.node? (here ++ [name]) with
    | some .directory => throw .isDirectory
    | _ =>
      fs.checkAccess .write (here ++ [name])
      return fs.set (here ++ [name]) (.file contents)

/-- Makes a directory in one that is there. -/
def makeDirectory (fs : FileSystem) (p : FilePath) : Except FileFault FileSystem := do
  match ← fs.place p with
  | (_, none) => throw .exists
  | (here, some name) =>
    checkName name
    match fs.node? (here ++ [name]) with
    | some _ => throw .exists
    | none =>
      fs.checkAccess .write (here ++ [name])
      return fs.set (here ++ [name]) .directory

/-- What a failure to make a directory comes to: none if there is one already. -/
def orPresent (fs : FileSystem) (p : FilePath) (fault : FileFault) : Except FileFault Unit :=
  if fs.isDirectory p then .ok () else .error fault

/-- Makes a directory and those above it that are missing. Directories made before a failure
stay. -/
def makeDirectories (fs : FileSystem) (p : FilePath) : Except FileFault Unit × FileSystem :=
  if p.isEmpty then (.ok (), fs)
  else
    match fs.makeDirectory p with
    | .ok fs => (.ok (), fs)
    | .error .notFound =>
      match _h : p.parent? with
      | none => (.error .notFound, fs)
      | some parent =>
        match makeDirectories fs parent with
        | (.error fault, fs) => (.error fault, fs)
        | (.ok (), fs) =>
          match fs.makeDirectory p with
          | .ok fs => (.ok (), fs)
          | .error fault => (fs.orPresent p fault, fs)
    | .error fault => (fs.orPresent p fault, fs)
termination_by p.parts.length
decreasing_by exact FilePath.length_parts_parent?_lt (by assumption)

end FileSystem

end PermissionAudit
