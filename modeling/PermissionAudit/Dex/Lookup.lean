import PermissionAudit.Dex.Code
import PermissionAudit.Dex.Descriptor
import PermissionAudit.Dex.Instruction.Render

/-!
Names behind the indices of a dex file, and instructions with the names in
place of the numbers.
-/

namespace PermissionAudit.Dex

/-- The entry at an index of a table. -/
def entry {α : Type} (resource : Resource) (table : List α) (index : Nat) : Except Error α :=
  match table[index]? with
  | some item => .ok item
  | none => .error (.notFound resource index)

/-- The coded characters of the string data at an offset, without length and terminator. -/
def stringData (b : Bytes) (offset : Nat) : Except Error Bytes := do
  let rest ← locate b offset .stringData
  match Uleb128.read rest with
  | .error fault => throw (.malformed fault)
  | .ok (_, rest) =>
    let coded := rest.takeWhile (· ≠ 0)
    if coded.length = rest.length then
      throw (.malformed .tag)
    return coded

def string (dex : Dex) (index : Nat) : Except Error String := do
  let offset ← entry .string dex.strings index
  let coded ← stringData dex.raw offset
  match Mutf8.decode coded with
  | .ok s => return s
  | .error fault => throw (.mutf8 fault)

def type (dex : Dex) (index : Nat) : Except Error Descriptor := do
  let name ← entry .type dex.types index
  let text ← dex.string name
  match Descriptor.parse? text with
  | some descriptor => return descriptor
  | none => throw (.invalidDescriptor text)

/-- Parameter types of a prototype. -/
def parameters (dex : Dex) (proto : ProtoId) : Except Error (List Descriptor) :=
  proto.parameters.mapM dex.type

/-- Parameters between parentheses, then the return type. -/
def protoText (dex : Dex) (proto : ProtoId) : Except Error String := do
  let parameters ← dex.parameters proto
  let returned ← dex.type proto.returnType
  return "(" ++ String.join (parameters.map (·.text)) ++ ")" ++ returned.text

/-- The definer, the name and the prototype of a method. -/
def methodText (dex : Dex) (method : MethodId) : Except Error String := do
  let definer ← dex.type method.definer
  let name ← dex.string method.name
  let proto ← entry .proto dex.protos method.proto
  let signature ← dex.protoText proto
  return definer.text ++ "->" ++ name ++ signature

/-- The definer, the name and the type of a field. -/
def fieldText (dex : Dex) (field : FieldId) : Except Error String := do
  let definer ← dex.type field.definer
  let name ← dex.string field.name
  let type ← dex.type field.type
  return definer.text ++ "->" ++ name ++ ":" ++ type.text

/-- A string constant in quotes; a line feed is the only character that is escaped. -/
def constantText (s : String) : String :=
  let escape (c : Char) : List Char := if c = '\n' then ['\\', 'n'] else [c]
  "\"" ++ String.ofList (s.toList.flatMap escape) ++ "\""

/-- A reference by name; call sites and method handles keep their number. -/
def referenceText (dex : Dex) (reference : Opcode.Reference) (index : Nat) :
    Except Error String :=
  match reference with
  | .string => do return constantText (← dex.string index)
  | .type => do return (← dex.type index).text
  | .field => do dex.fieldText (← entry .field dex.fields index)
  | .method => do dex.methodText (← entry .method dex.methods index)
  | .proto => do dex.protoText (← entry .proto dex.protos index)
  | .none | .callSite | .methodHandle => .ok (Instruction.rawReference reference index)

end PermissionAudit.Dex

namespace PermissionAudit.Located

/-- The form with addresses and names. -/
def text (l : Located) (dex : Dex) : Except Dex.Error String :=
  l.instr.renderWith (targetText l.addr) dex.referenceText

end PermissionAudit.Located
