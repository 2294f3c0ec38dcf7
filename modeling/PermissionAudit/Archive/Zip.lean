import PermissionAudit.Archive.Inflate
import PermissionAudit.Bytes.Crc32

/-!
Zip archives: a directory of entries at the end of the file, found by its
closing record, and each entry behind a header of its own. Bytes in front of the
archive are allowed for.
-/

namespace PermissionAudit.Zip

/-- Why an archive or one of its entries cannot be opened. -/
inductive Fault where
  | header
  | noDirectoryEnd
  | directoryExtent
  | directoryHeader
  | noLargeDirectoryEnd
  | largeDirectoryPlace
  | directoryPlace
  | entryHeader
  | headerPlace
  | multipleDisks
  | encrypted
  | unsupportedMethod
  | noCipherField
  | cipherFieldLength
  | cipherVendor
  | cipherVersion
  | cipherStrength
  /-- The archive ends inside a record. -/
  | truncated
  /-- No file reaches so far. -/
  | beyondFiles
deriving DecidableEq

def Fault.message : Fault → String
  | header => "invalid Zip archive: Invalid zip header"
  | noDirectoryEnd => "invalid Zip archive: Could not find central directory end"
  | directoryExtent => "invalid Zip archive: Invalid central directory size or offset"
  | directoryHeader => "invalid Zip archive: Invalid Central Directory header"
  | noLargeDirectoryEnd => "invalid Zip archive: Could not find ZIP64 central directory end"
  | largeDirectoryPlace =>
    "invalid Zip archive: File cannot contain ZIP64 central directory end"
  | directoryPlace => "invalid Zip archive: Could not seek to start of central directory"
  | entryHeader => "invalid Zip archive: Invalid local file header"
  | headerPlace => "invalid Zip archive: Archive header is too large"
  | multipleDisks => "unsupported Zip archive: Support for multi-disk files is not implemented"
  | encrypted => "unsupported Zip archive: Password required to decrypt file"
  | unsupportedMethod => "unsupported Zip archive: Compression method not supported"
  | noCipherField => "invalid Zip archive: AES encryption without AES extra data field"
  | cipherFieldLength =>
    "unsupported Zip archive: AES extra data field has an unsupported length"
  | cipherVendor => "invalid Zip archive: Invalid AES vendor"
  | cipherVersion => "invalid Zip archive: Invalid AES vendor version"
  | cipherStrength => "invalid Zip archive: Invalid AES encryption strength"
  | truncated => "failed to fill whole buffer"
  | beyondFiles => "Invalid argument (os error 22)"

/-- Why the contents of an entry cannot be read. -/
inductive ContentFault where
  | checksum
  | deflated (fault : Inflate.Fault)
deriving DecidableEq

def ContentFault.message : ContentFault → String
  | checksum => "Invalid checksum"
  | deflated .incomplete => "incomplete deflate stream"
  | deflated .corrupt => "corrupt deflate stream"

/-- The bytes of an archive. -/
abbrev Source := Array UInt8

/-- A number of `width` bytes, the low one first. -/
def number (b : Source) (position : Nat) : Nat → Except Fault Nat
  | 0 => .ok 0
  | width + 1 =>
    match b[position]? with
    | none => .error .truncated
    | some byte => do return byte.toNat + 256 * (← number b (position + 1) width)

/-- Places that a record can give are below this. -/
def placeLimit : Nat := 0x10000000000000000

/-- Places in files are below this. -/
def fileLimit : Nat := 0x8000000000000000

/-- Whether a four-byte mark stands at a position. -/
def hasMark (b : Source) (position mark : Nat) : Bool :=
  match number b position 4 with
  | .ok n => n = mark
  | .error _ => false

/-- Numbers of the given widths, one after another. -/
def numbers (b : Source) (position : Nat) : List Nat → Except Fault (List Nat)
  | [] => .ok []
  | width :: rest => do
    let n ← number b position width
    return n :: (← numbers b (position + width) rest)

def slice (b : Source) (position count : Nat) : Except Fault Source :=
  if position + count ≤ b.size then .ok (b.extract position (position + count))
  else .error .truncated

/-- The record that closes the directory. -/
structure DirectoryEnd where
  position : Nat
  disk : Nat
  directoryDisk : Nat
  entriesHere : Nat
  entries : Nat
  size : Nat
  offset : Nat
  commentLength : Nat

namespace DirectoryEnd

def signature : Nat := 0x06054B50

/-- The size of the record without its comment. -/
def fixedSize : Nat := 22

def read (b : Source) (position : Nat) : Except Fault DirectoryEnd := do
  match ← numbers b (position + 4) [2, 2, 2, 2, 4, 4, 2] with
  | [disk, directoryDisk, entriesHere, entries, size, offset, commentLength] =>
    let _ ← slice b (position + fixedSize) commentLength
    return ⟨position, disk, directoryDisk, entriesHere, entries, size, offset, commentLength⟩
  | _ => throw .truncated

/-- The last position, going back from `position`, where the record starts. At most `tries`
more positions are looked at. -/
def findFrom (b : Source) (position : Nat) : Nat → Option Nat
  | 0 => if hasMark b position signature then some position else none
  | tries + 1 =>
    if hasMark b position signature then some position
    else if position = 0 then none
    else findFrom b (position - 1) tries

def find (b : Source) : Except Fault DirectoryEnd :=
  if b.size < fixedSize then .error .header
  else
    match findFrom b (b.size - fixedSize) 0xFFFF with
    | some position => read b position
    | none => .error .noDirectoryEnd

/-- Some number does not fit the record, so that a larger record holds it. -/
def overflows (e : DirectoryEnd) : Bool :=
  e.disk = 0xFFFF || e.directoryDisk = 0xFFFF || e.entriesHere = 0xFFFF || e.entries = 0xFFFF ||
    e.size = 0xFFFFFFFF || e.offset = 0xFFFFFFFF

end DirectoryEnd

/-- Where the directory is. -/
structure Directory where
  /-- The bytes in front of the archive. -/
  shift : Nat
  start : Nat
  entries : Nat

namespace Directory

/-- The directory by the ordinary closing record. -/
def ofEnd (e : DirectoryEnd) : Except Fault Directory :=
  if e.position < e.size + e.offset then .error .directoryExtent
  else .ok ⟨e.position - e.size - e.offset, e.position - e.size, e.entriesHere⟩

def largeSignature : Nat := 0x06064B50

def locatorSignature : Nat := 0x07064B50

/-- The first position of the large closing record from `position` on. -/
def findLarge (b : Source) (limit position : Nat) : Nat → Except Fault Nat
  | 0 => .error .noLargeDirectoryEnd
  | tries + 1 => do
    if limit < position then throw .noLargeDirectoryEnd
    if (← number b position 4) = largeSignature then return position
    findLarge b limit (position + 1) tries

/-- The directory by the large closing record, whose locator stands at a position. -/
def ofLocator (b : Source) (e : DirectoryEnd) (locator : Nat) : Except Fault Directory := do
  match ← numbers b (locator + 4) [4, 8, 4] with
  | [directoryDisk, nominal, _] =>
    if !e.overflows ∧ e.disk ≠ directoryDisk then throw .multipleDisks
    if e.position < 60 then throw .largeDirectoryPlace
    let position ← findLarge b (e.position - 60) nominal (b.size + 1)
    match ← numbers b (position + 4) [8, 2, 2, 4, 4, 8, 8, 8, 8] with
    | [_, _, _, disk, directoryDisk, _, entries, _, offset] =>
      if disk ≠ directoryDisk then throw .multipleDisks
      let shift := position - nominal
      if placeLimit ≤ offset + shift then throw .directoryExtent
      return ⟨shift, offset + shift, entries⟩
    | _ => throw .truncated
  | _ => throw .truncated

def find (b : Source) : Except Fault Directory := do
  let e ← DirectoryEnd.find b
  if !e.overflows ∧ e.disk ≠ e.directoryDisk then throw .multipleDisks
  let back := 20 + DirectoryEnd.fixedSize + e.commentLength
  if back ≤ b.size then
    if (← number b (b.size - back) 4) = locatorSignature then
      return ← ofLocator b e (b.size - back)
  ofEnd e

end Directory

/-- An entry as the directory describes it. -/
structure Entry where
  encrypted : Bool
  method : Nat
  /-- Whether a field of the extra data tells how the entry is enciphered. -/
  ciphered : Bool
  checksum : Nat
  compressedSize : Nat
  uncompressedSize : Nat
  name : Source
  /-- Where the header of the entry is. -/
  start : Nat
deriving DecidableEq

namespace Entry

def signature : Nat := 0x02014B50

/-- A size or place that does not fit its field. -/
def overflow : Nat := 0xFFFFFFFF

/-- The large form of a size or place that does not fit its field, at a position of the extra
data, and the position after it. Nothing if the extra data ends before. -/
def large? (extra : Source) (position n : Nat) : Option (Nat × Nat) :=
  if n = overflow then
    match number extra position 8 with
    | .ok n => some (n, position + 8)
    | .error _ => none
  else
    some (n, position)

/-- Takes sizes and place from a field of the extra data where they do not fit, and gives the
position up to which the field was read. Nothing more is taken where the extra data ends. -/
def readLarge (e : Entry) (extra : Source) (position : Nat) : Entry × Option Nat :=
  match large? extra position e.uncompressedSize with
  | none => (e, none)
  | some (size, position) =>
    let e := { e with uncompressedSize := size }
    match large? extra position e.compressedSize with
    | none => (e, none)
    | some (size, position) =>
      let e := { e with compressedSize := size }
      match large? extra position e.start with
      | none => (e, none)
      | some (start, position) => ({ e with start }, some position)

/-- The method of entries that are enciphered. Their own method is in the extra data. -/
def cipherMethod : Nat := 99

/-- Takes the method from a field on the cipher. Nothing is taken if the extra data ends
before. -/
def readCipher (e : Entry) (extra : Source) (position length : Nat) :
    Except Fault (Option Entry) :=
  if length ≠ 7 then
    .error .cipherFieldLength
  else
    match numbers extra position [2, 2, 1, 2] with
    | .ok [version, vendor, strength, method] =>
      if vendor ≠ 0x4541 then .error .cipherVendor
      else if version ≠ 1 ∧ version ≠ 2 then .error .cipherVersion
      else if strength ≠ 1 ∧ strength ≠ 2 ∧ strength ≠ 3 then .error .cipherStrength
      else .ok (some { e with method, ciphered := true })
    | _ => .ok none

/-- The entry with what the extra data says from a position on. Fields that end early are
passed over up to the length that they give; after one on the cipher as many bytes again are
passed over. Every field takes at least four bytes, so that the size of the data is fuel
enough. -/
def readExtra (extra : Source) : Nat → Nat → Entry → Except Fault Entry
  | 0, _, e => .ok e
  | fuel + 1, position, e =>
    match numbers extra position [2, 2] with
    | .ok [kind, length] =>
      let position := position + 4
      match kind with
      | 0x0001 =>
        match e.readLarge extra position with
        | (e, some next) => readExtra extra fuel (max next (position + length)) e
        | (e, none) => .ok e
      | 0x9901 => do
        match ← e.readCipher extra position length with
        | some e => readExtra extra fuel (position + 2 * length) e
        | none => .ok e
      | _ => readExtra extra fuel (position + length) e
    | _ => .ok e

/-- The entry at a position of the directory, and the position after it. -/
def read (b : Source) (shift position : Nat) : Except Fault (Entry × Nat) := do
  if (← number b position 4) ≠ signature then throw .directoryHeader
  match ← numbers b (position + 4) [2, 2, 2, 2, 2, 2, 4, 4, 4, 2, 2, 2, 2, 2, 4, 4] with
  | [_, _, flags, method, _, _, checksum, compressed, uncompressed, nameLength, extraLength,
      commentLength, _, _, _, start] =>
    let name ← slice b (position + 46) nameLength
    let extra ← slice b (position + 46 + nameLength) extraLength
    let _ ← slice b (position + 46 + nameLength + extraLength) commentLength
    let e ← readExtra extra extra.size 0
      ⟨flags % 2 = 1, method, false, checksum, compressed, uncompressed, name, start⟩
    if e.method = cipherMethod ∧ !e.ciphered then throw .noCipherField
    if placeLimit ≤ e.start + shift then throw .headerPlace
    return ({ e with start := e.start + shift },
      position + 46 + nameLength + extraLength + commentLength)
  | _ => throw .truncated

def readMany (b : Source) (shift : Nat) : Nat → Nat → Except Fault (List Entry)
  | 0, _ => .ok []
  | count + 1, position => do
    let (entry, next) ← read b shift position
    return entry :: (← readMany b shift count next)

def headerSignature : Nat := 0x04034B50

/-- The stored form of an entry; less of it if the archive ends before. -/
def stored (e : Entry) (b : Source) : Except Fault Source := do
  if e.encrypted then throw .encrypted
  if fileLimit ≤ e.start then throw .beyondFiles
  if (← number b e.start 4) ≠ headerSignature then throw .entryHeader
  match ← numbers b (e.start + 26) [2, 2] with
  | [nameLength, extraLength] =>
    let start := e.start + 30 + nameLength + extraLength
    if e.method ≠ 0 ∧ e.method ≠ 8 then throw .unsupportedMethod
    return b.extract start (min b.size (start + e.compressedSize))
  | _ => throw .truncated

/-- The contents behind a stored form. -/
def contents (e : Entry) (stored : Source) : Except ContentFault Bytes := do
  let contents ← match e.method with
    | 8 => (Inflate.inflate stored).mapError .deflated
    | _ => pure stored.toList
  if (Crc32.checksum contents).toNat = e.checksum then return contents else throw .checksum

end Entry

/-- The entries of an archive, in the order of its directory. -/
def entries (b : Source) : Except Fault (List Entry) := do
  let directory ← Directory.find b
  if fileLimit ≤ directory.start then throw .directoryPlace
  Entry.readMany b directory.shift directory.entries directory.start

end PermissionAudit.Zip
