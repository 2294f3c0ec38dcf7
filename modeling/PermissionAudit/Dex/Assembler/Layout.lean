import PermissionAudit.Bytes.Uleb128
import PermissionAudit.Dex.Assembler.Basic
import PermissionAudit.Dex.File

/-!
The file of an assembler: the header, the id tables, then the data they point
to. Data is laid out in sections (strings, parameter lists, interface lists,
code, class data); within a section blocks follow one another, padded to the
section's alignment.
-/

namespace PermissionAudit.Assembler

open Bytes (le16 le32)

/-- Puts blocks one after another from position `start` on, each at a multiple of `align`.
Returns their offsets and all bytes with the padding; a missing block has offset zero. -/
def place (align : Nat) (start : Nat) : List (Option Bytes) → List Nat × Bytes
  | [] => ([], [])
  | none :: rest =>
    let (offsets, bytes) := place align start rest
    (0 :: offsets, bytes)
  | some block :: rest =>
    let padding := (align - start % align) % align
    let offset := start + padding
    let (offsets, bytes) := place align (offset + block.length) rest
    (offset :: offsets, List.replicate padding 0 ++ block ++ bytes)

/-- String data: the length in 16-bit units, the characters and a terminator. -/
def stringBlock (s : String) : Bytes :=
  Uleb128.write (Utf16.encode s.toList).length ++ Utf8.encode s ++ [0]

/-- A type list: its length and 16-bit indices. The empty list is not written. -/
def typeListBlock (types : List Nat) : Option Bytes :=
  if types.isEmpty then none else some (le32 types.length ++ types.flatMap le16)

/-- Code: sixteen registers, none of them for arguments, five for calls, and the units. -/
def codeBlock (units : List UInt16) : Bytes :=
  le16 16 ++ le16 0 ++ le16 5 ++ le16 0 ++ le32 0 ++ le32 units.length ++ Bytes.ofUnits units

/-- Methods in order of their index, indices written as differences. -/
def methodRun (codeOffset : Nat → Nat) : Nat → List Method → Bytes
  | _, [] => []
  | previous, m :: rest =>
    Uleb128.write (m.index - previous) ++ Uleb128.write m.flags ++
      Uleb128.write (codeOffset m.index) ++ methodRun codeOffset m.index rest

/-- Methods sorted by index; those with the same index keep their order. -/
def sortMethods (methods : List Method) : List Method :=
  methods.mergeSort fun a b => decide (a.index ≤ b.index)

/-- Class data, which a class without methods does not have. -/
def classDataBlock (codeOffset : Nat → Nat) (c : Class) : Option Bytes :=
  if c.direct.isEmpty && c.virtual.isEmpty then
    none
  else
    some (Uleb128.write 0 ++ Uleb128.write 0 ++ Uleb128.write c.direct.length ++
      Uleb128.write c.virtual.length ++ methodRun codeOffset 0 (sortMethods c.direct) ++
      methodRun codeOffset 0 (sortMethods c.virtual))

/-- Method indices and units of all code, in class order, direct methods first. -/
def codes (a : Assembler) : List (Nat × List UInt16) :=
  a.classes.flatMap fun c =>
    (c.direct ++ c.virtual).filterMap fun m => m.code.map fun units => (m.index, units)

/-- Data sections: offsets of the blocks of each, and all bytes. -/
structure Data where
  strings : List Nat
  parameters : List Nat
  interfaces : List Nat
  classData : List Nat
  bytes : Bytes

/-- Lays out the data from position `start` on. A method that was given code more than once has
the last one. -/
def layoutData (a : Assembler) (start : Nat) : Data :=
  let (strings, stringBytes) := place 1 start (a.strings.items.map fun s => some (stringBlock s))
  let start := start + stringBytes.length
  let (parameters, parameterBytes) :=
    place 4 start (a.protos.items.map fun p => typeListBlock p.parameters)
  let start := start + parameterBytes.length
  let (interfaces, interfaceBytes) :=
    place 4 start (a.classes.map fun c => typeListBlock c.interfaces)
  let start := start + interfaceBytes.length
  let (codeOffsets, codeBytes) := place 4 start (a.codes.map fun c => some (codeBlock c.2))
  let start := start + codeBytes.length
  let located := ((a.codes.map (·.1)).zip codeOffsets).reverse
  let codeOffset (index : Nat) : Nat := (located.lookup index).getD 0
  let (classData, classBytes) := place 1 start (a.classes.map (classDataBlock codeOffset))
  { strings, parameters, interfaces, classData
    bytes := stringBytes ++ parameterBytes ++ interfaceBytes ++ codeBytes ++ classBytes }

def protoRecord (p : Proto) (parametersOffset : Nat) : Bytes :=
  le32 p.shorty ++ le32 p.returnType ++ le32 parametersOffset

def memberRecord (m : Member) : Bytes := le16 m.definer ++ le16 m.signature ++ le32 m.name

def classRecord (c : Class) (interfacesOffset classDataOffset : Nat) : Bytes :=
  le32 c.type ++ le32 c.flags ++ le32 (c.superclass.getD Dex.noIndex) ++ le32 interfacesOffset ++
    le32 Dex.noIndex ++ le32 0 ++ le32 classDataOffset ++ le32 0

/-- The id tables, in file order. -/
def tables (a : Assembler) (data : Data) : List Bytes := [
  data.strings.flatMap le32,
  a.types.items.flatMap le32,
  (a.protos.items.zip data.parameters).flatMap fun p => protoRecord p.1 p.2,
  a.fields.flatMap memberRecord,
  a.methods.items.flatMap memberRecord,
  (a.classes.zip (data.interfaces.zip data.classData)).flatMap fun c =>
    classRecord c.1 c.2.1 c.2.2]

/-- Number of entries and size of an entry of each table, in file order. -/
def tableSizes (a : Assembler) : List (Nat × Nat) := [
  (a.strings.size, 4), (a.types.size, 4), (a.protos.size, 12), (a.fields.length, 8),
  (a.methods.size, 8), (a.classes.length, 32)]

/-- A section as the header lists it; an empty one has offset zero. -/
def sectionEntry (size offset : Nat) : Bytes :=
  le32 size ++ le32 (if size = 0 then 0 else offset)

/-- Entries of the sections that start at `offset`. -/
def sectionEntries (dataSize : Nat) : Nat → List (Nat × Nat) → Bytes
  | offset, [] => sectionEntry dataSize offset
  | offset, (count, size) :: rest =>
    sectionEntry count offset ++ sectionEntries dataSize (offset + size * count) rest

/-- The file. Signature and checksum cover all bytes after them. -/
def build (a : Assembler) : Bytes :=
  let dataOffset := a.tableSizes.foldl (fun offset t => offset + t.2 * t.1) Dex.Header.size
  let data := a.layoutData dataOffset
  let fileSize := dataOffset + data.bytes.length
  let signed :=
    le32 fileSize ++ le32 Dex.Header.size ++ le32 Dex.Header.endianConstant ++
    le32 0 ++ le32 0 ++ le32 0 ++
    sectionEntries data.bytes.length Dex.Header.size a.tableSizes ++
    (a.tables data).flatten ++ data.bytes
  let summed := Sha1.digest signed ++ signed
  Dex.Header.magic ++ a.version ++ [0] ++ le32 (Adler32.checksum summed) ++ summed

end PermissionAudit.Assembler
