import PermissionAudit.Bytes.Adler32
import PermissionAudit.Bytes.Sha1
import PermissionAudit.Dex.Error
import PermissionAudit.Log
import PermissionAudit.Text.Utf8

/-!
The header of a dex file: a magic with the version, a checksum, a signature,
and the size and offset of each table, at fixed positions.
-/

namespace PermissionAudit.Dex

/-- Where a table lies: its number of entries and its offset. -/
structure Extent where
  size : Nat
  offset : Nat
deriving DecidableEq

structure Header where
  version : Nat
  checksum : Nat
  signature : Bytes
  fileSize : Nat
  linkSize : Nat
  mapOffset : Nat
  strings : Extent
  types : Extent
  protos : Extent
  fields : Extent
  methods : Extent
  classes : Extent
deriving DecidableEq

namespace Header

/-- Size of a header, in bytes. -/
def size : Nat := 0x70

/-- The first four bytes of a file, `dex` and a line feed. -/
def magic : Bytes := [0x64, 0x65, 0x78, 0x0A]

/-- The byte order mark of a little-endian file. -/
def endianConstant : Nat := 0x12345678

/-- The same mark in a big-endian file. -/
def reverseEndianConstant : Nat := 0x78563412

/-- The number that the version digits spell; a plus sign may stand in front. -/
def readVersion (digits : Bytes) : Option Nat :=
  match digits.map fun b => Char.ofNat b.toNat with
  | '+' :: rest => Digits.readDecimal rest
  | cs => Digits.readDecimal cs

/-- The version, out of the first eight bytes. -/
def readMagic (b : Bytes) : Except Error Nat :=
  if b.take 4 ≠ magic then
    .error (.malformed .tag)
  else if b.length < 7 then
    .error (.malformed .endOfInput)
  else if b[7]? ≠ some 0 then
    .error (.malformed .tag)
  else
    let digits := (b.drop 4).take 3
    match readVersion digits with
    | some version => .ok version
    | none => .error (.unsupportedVersion (Utf8.decodeLossy digits))

/-- The extent written at position `i`. -/
def extentAt (b : Bytes) (i : Nat) : Extent := ⟨Bytes.u32At b i, Bytes.u32At b (i + 4)⟩

/-- The header of a version, its numbers read by position. -/
def ofBytes (version : Nat) (b : Bytes) : Header where
  version := version
  checksum := Bytes.u32At b 8
  signature := (b.drop 12).take 20
  fileSize := Bytes.u32At b 32
  linkSize := Bytes.u32At b 44
  mapOffset := Bytes.u32At b 52
  strings := extentAt b 56
  types := extentAt b 64
  protos := extentAt b 72
  fields := extentAt b 80
  methods := extentAt b 88
  classes := extentAt b 96

/-- Reads the header. What comes first in the file is checked first, and each number is asked
for only after the bytes before it are accepted. -/
def read (b : Bytes) : Except Error Header := do
  let version ← readMagic b
  if b.length < 40 then
    throw (.malformed .endOfInput)
  if Bytes.u32At b 36 ≠ size then
    throw (.malformed .verify)
  if b.length < 44 then
    throw (.malformed .endOfInput)
  let tag := Bytes.u32At b 40
  if tag = reverseEndianConstant then
    throw .bigEndian
  if tag ≠ endianConstant then
    throw (.endianTag tag)
  if b.length < size then
    throw (.malformed .endOfInput)
  return ofBytes version b

/-- Versions that are understood. -/
def isSupported (h : Header) : Bool := 35 ≤ h.version && h.version ≤ 41

/-- The version as the magic writes it. -/
def versionText (h : Header) : String := Digits.decimal 3 h.version

/-- Warnings about checksum, signature and size, which are compared and never enforced. -/
def integrityRecords (h : Header) (b : Bytes) : List LogRecord :=
  let checksum := Adler32.checksum (b.drop 12)
  let signature := Sha1.digest (b.drop 32)
  let compared (what expected computed : String) : List LogRecord :=
    [⟨.warn, "invalid " ++ what⟩, ⟨.warn, "    expected: " ++ expected⟩,
      ⟨.warn, "    computed: " ++ computed⟩]
  (if checksum = h.checksum then []
    else compared "checksum" (Digits.hex 1 h.checksum) (Digits.hex 1 checksum)) ++
  (if signature = h.signature then []
    else compared "signature" (Digits.hexBytes h.signature) (Digits.hexBytes signature)) ++
  (if h.fileSize = b.length then []
    else [⟨.warn, "header file size is " ++ toString h.fileSize ++
      " bytes, actual size is " ++ toString b.length ++ " bytes"⟩])

/-- What is logged about an accepted header. -/
def records (h : Header) (b : Bytes) : List LogRecord :=
  (if h.linkSize = 0 then [] else [⟨.warn, "dex has a non-null link size"⟩]) ++
  [⟨.debug, "Dex version:  " ++ h.versionText⟩] ++
  (if h.isSupported then
    h.integrityRecords b ++ [⟨.debug, "Map offset:   " ++ toString h.mapOffset⟩]
  else [])

end Header

end PermissionAudit.Dex
