import PermissionAudit.Dex.ClassData
import PermissionAudit.Dex.Header

/-!
Dex files. The header and the id tables are read when a file is accepted;
string data and code stay in the bytes and are decoded on demand.
-/

namespace PermissionAudit

namespace Dex

/-- Return type and parameter types, as type indices. -/
structure ProtoId where
  returnType : Nat
  parameters : List Nat
deriving DecidableEq

structure FieldId where
  definer : Nat
  type : Nat
  name : Nat
deriving DecidableEq

structure MethodId where
  definer : Nat
  proto : Nat
  name : Nat
deriving DecidableEq

structure ClassDef where
  type : Nat
  flags : Nat
  superclass : Option Nat
  interfaces : List Nat
  data : Option ClassData
deriving DecidableEq

/-- Direct methods, then virtual ones; none without class data. -/
def ClassDef.methods (c : ClassDef) : List EncodedMethod :=
  match c.data with
  | some data => data.methods
  | none => []

/-- What a missing superclass is written as. -/
def noIndex : Nat := 0xFFFFFFFF

/-- The bytes from `offset` on, which must be inside the file. -/
def locate (b : Bytes) (offset : Nat) (item : Item) : Except Error Bytes :=
  match b.drop offset with
  | [] => .error (.invalidOffset item)
  | rest => .ok rest

/-- The records of a table, which must lie inside the file as a whole. An empty table may be
said to be anywhere. -/
def tableRecords (b : Bytes) (table : Table) (extent : Extent) (recordSize : Nat) :
    Except Error (List Bytes) :=
  if extent.size = 0 then
    .ok []
  else if extent.offset + extent.size * recordSize ≤ b.length then
    .ok (Bytes.chunks recordSize extent.size (b.drop extent.offset))
  else
    .error (.invalidOffset (.table table))

/-- The type indices of a list: a count, then 16-bit numbers. Offset zero is the empty list. -/
def typeList (b : Bytes) (offset : Nat) : Except Error (List Nat) :=
  if offset = 0 then
    .ok []
  else do
    let rest ← locate b offset .typeList
    let size := Bytes.u32At rest 0
    if rest.length < 4 ∨ rest.length < 4 + 2 * size then
      throw (.malformed .endOfInput)
    return (Bytes.units ((rest.drop 4).take (2 * size))).map (·.toNat)

/-- A prototype and its parameter list. -/
def readProto (b record : Bytes) : Except Error ProtoId := do
  let parameters ← typeList b (Bytes.u32At record 8)
  return ⟨Bytes.u32At record 4, parameters⟩

def readField (record : Bytes) : FieldId :=
  ⟨Bytes.u16At record 0, Bytes.u16At record 2, Bytes.u32At record 4⟩

def readMethod (record : Bytes) : MethodId :=
  ⟨Bytes.u16At record 0, Bytes.u16At record 2, Bytes.u32At record 4⟩

/-- The class data at an offset; offset zero is no data. -/
def readClassData (b : Bytes) (offset : Nat) : Except Error (Option ClassData) :=
  if offset = 0 then
    .ok none
  else do
    let rest ← locate b offset .classData
    match ClassData.read rest with
    | .ok data => return some data
    | .error fault => throw (.malformed fault)

/-- A class with its data and its interfaces, in this order. -/
def readClass (b record : Bytes) : Except Error ClassDef := do
  let data ← readClassData b (Bytes.u32At record 24)
  let interfaces ← typeList b (Bytes.u32At record 12)
  let superclass := Bytes.u32At record 8
  return {
    type := Bytes.u32At record 0
    flags := ClassFlags.truncate (Bytes.u32At record 4)
    superclass := if superclass = noIndex then none else some superclass
    interfaces := interfaces
    data := data }

end Dex

open Dex in
/-- An accepted dex file. -/
structure Dex where
  header : Header
  raw : Bytes
  /-- Offsets of string data. -/
  strings : List Nat
  /-- String indices of descriptors. -/
  types : List Nat
  protos : List ProtoId
  fields : List FieldId
  methods : List MethodId
  classes : List ClassDef
deriving DecidableEq

namespace Dex

/-- Reads a file: the header, then the tables one after another. -/
def read (b : Bytes) : Except Error Dex := do
  let header ← Header.read b
  if !header.isSupported then
    throw (.unsupportedVersion header.versionText)
  let strings ← tableRecords b .strings header.strings 4
  let types ← tableRecords b .types header.types 4
  let protos ← tableRecords b .protos header.protos 12
  let protos ← protos.mapM (readProto b)
  let fields ← tableRecords b .fields header.fields 8
  let methods ← tableRecords b .methods header.methods 8
  let classes ← tableRecords b .classes header.classes 32
  let classes ← classes.mapM (readClass b)
  return {
    header := header
    raw := b
    strings := strings.map (Bytes.u32At · 0)
    types := types.map (Bytes.u32At · 0)
    protos := protos
    fields := fields.map readField
    methods := methods.map readMethod
    classes := classes }

/-- Counts of what was read. -/
def summary (dex : Dex) : LogRecord :=
  ⟨.debug, toString dex.strings.length ++ " strings, " ++ toString dex.types.length ++
    " types, " ++ toString dex.methods.length ++ " methods, " ++
    toString dex.classes.length ++ " classes"⟩

/-- Reads a file and logs what was found on the way. -/
def parse (b : Bytes) : Logged (Except Error Dex) :=
  let result := read b
  let found := match result with
    | .ok dex => [dex.summary]
    | .error _ => []
  let seen := match Header.read b with
    | .ok header => header.records b ++ found
    | .error _ => []
  ⟨result, ⟨.trace, "parsing dex..."⟩ :: seen⟩

/-- Dex versions are numbers. -/
def version (dex : Dex) : Nat := dex.header.version

end Dex

end PermissionAudit
