import PermissionAudit.Application.Error
import PermissionAudit.Dex.File
import PermissionAudit.FileSystem.Basic
import PermissionAudit.Text.Digits
import PermissionAudit.Text.Utf8

/-!
Applications: a dex file, or an archive with dex files, which are read in the
order of their numbers.
-/

namespace PermissionAudit

namespace DexEntry

/-- Numbers of entries are below this. -/
def rankLimit : Nat := 0x100000000

/-- What stands between a beginning and an end. -/
def between? (first last text : List Char) : Option (List Char) :=
  if first.isPrefixOf text ∧ last.isSuffixOf (text.drop first.length) then
    some ((text.drop first.length).take (text.length - first.length - last.length))
  else
    none

/-- The number of an entry called `classes.dex`, `classes2.dex` and so on, at the top of the
archive or in its `dex` directory. The one without a number is the first. -/
def rank? (name : String) : Option Nat := do
  let top := "dex/".toList
  let name := name.toList
  let name := if top.isPrefixOf name then name.drop top.length else name
  let digits ← between? "classes".toList ".dex".toList name
  if digits.isEmpty then return 1
  let rank ← Digits.readDecimal digits
  if rank < rankLimit then some rank else none

end DexEntry

/-- A dex file of an archive. -/
structure DexEntry where
  rank : Nat
  name : String
  contents : Bytes
deriving DecidableEq

namespace DexEntry

/-- A file of an archive, if its name is that of a dex file. -/
def ofFile? (name : String) (contents : Bytes) : Option DexEntry :=
  (rank? name).map fun rank => ⟨rank, name, contents⟩

/-- Entries in order of their numbers, then of their names. -/
def precedes (a b : DexEntry) : Bool :=
  a.rank < b.rank || (a.rank = b.rank && decide (a.name ≤ b.name))

def sort (entries : List DexEntry) : List DexEntry := entries.mergeSort precedes

end DexEntry

/-- An application that has been read. -/
structure Input where
  path : String
  dexs : List Dex

namespace Input

/-- Lifts a result into an attempt. -/
def orFail {ε α : Type} (f : ε → ScanError) (r : Except ε α) : Attempt ScanError α :=
  ExceptT.mk (pure (r.mapError f))

def log (m : Logged Unit) : Attempt ScanError Unit := ExceptT.lift m

def parseDex (b : Bytes) : Attempt ScanError Dex :=
  ExceptT.mk ((·.mapError .dex) <$> Dex.parse b)

/-- Opens an entry, and reads it if it is a dex file. -/
def readEntry (path : String) (archive : Zip.Source) (e : Zip.Entry) :
    Attempt ScanError (Option DexEntry) := do
  let stored ← orFail .archive (e.stored archive)
  let name := Utf8.decodeLossy e.name.toList
  if (DexEntry.rank? name).isNone then return none
  log (Logged.debug ("found " ++ name ++ " in " ++ path))
  let contents ← orFail .contents (e.contents stored)
  return DexEntry.ofFile? name contents

/-- Parses an entry. -/
def parseEntry (e : DexEntry) : Attempt ScanError Dex := do
  log (Logged.trace ("parsing " ++ e.name))
  parseDex e.contents

/-- Parses the dex files of an archive in order. An archive without any is no application. Each
file is parsed by itself, so that this can be done side by side; which one of several failures is
then reported is open, and here it is the first one. -/
def parseEntries (path : String) (found : List DexEntry) : Attempt ScanError (List Dex) := do
  if found.isEmpty then throw (.noDex path)
  (DexEntry.sort found).mapM parseEntry

/-- The dex files of an archive. -/
def readArchive (path : String) (contents : Bytes) : Attempt ScanError (List Dex) := do
  let archive := contents.toArray
  let entries ← orFail .archive (Zip.entries archive)
  let found ← entries.mapM (readEntry path archive)
  parseEntries path (found.filterMap id)

/-- Opens an application. A directory can be opened as an archive, but not read. -/
def load (fs : FileSystem) (path : String) : Attempt ScanError Input := do
  if (FilePath.ofString path).hasExtension "dex" then
    let contents ← orFail .dexFile (fs.read path)
    return ⟨path, [← parseDex contents]⟩
  else
    match fs.read path with
    | .ok contents => return ⟨path, ← readArchive path contents⟩
    | .error .isDirectory => throw (.archiveFile .isDirectory)
    | .error fault => throw (.file fault)

end Input

end PermissionAudit
