import PermissionAudit.Registry.Body
import PermissionAudit.Proofs.Machine.Decode
import PermissionAudit.Proofs.Machine.File
import PermissionAudit.Proofs.Machine.Text

/-!
Code, names and texts of a dex file without a trap. What can be wrong with an
index or an offset is reported; the numbers that are added up are those of the
instruction, which are small.
-/

namespace PermissionAudit.Machine

open Dex (Error EncodedMethod ProtoId FieldId MethodId)

/-! ## Code -/

/-- The code at an offset of the file. -/
def codeAt (b : Bytes) (offset : Nat) : Fallible Error Code := do
  let rest ← finished (Dex.locate b offset .code)
  let (registers, ins, outs, units) ← mapError .malformed (finished (Code.readUnits rest))
  let instrs ← mapError .instruction (sweep units)
  return ⟨registers, ins, outs, instrs⟩

/-- The code of a method, if it has some. -/
def code (dex : Dex) (method : EncodedMethod) : Fallible Error (Option Code) :=
  match method.codeOffset with
  | none => return none
  | some offset => do return some (← codeAt dex.raw offset)

theorem codeAt_eq (b : Bytes) (offset : Nat) :
    codeAt b offset = finished (Dex.codeAt b offset) := by
  rw [codeAt, Dex.codeAt]
  refine finished_bind fun rest _ => ?_
  rw [mapError_finished]
  cases hu : Code.readUnits rest with
  | error fault => rfl
  | ok item =>
    obtain ⟨registers, ins, outs, units⟩ := item
    show (mapError Error.instruction (sweep units) >>= _) = _
    rw [sweep_eq (Code.length_lt_of_readUnits hu), mapError_finished]
    cases hs : Instruction.sweep units <;> simp only [hs] <;> rfl

theorem code_eq (dex : Dex) (method : EncodedMethod) :
    code dex method = finished (dex.code method) := by
  rw [code, Dex.code]
  cases method.codeOffset with
  | none => rfl
  | some offset =>
    simp only [codeAt_eq]
    exact finished_map _ _

/-! ## Names -/

/-- The coded characters of the string data at an offset. -/
def stringData (b : Bytes) (offset : Nat) : Fallible Error Bytes := do
  let rest ← finished (Dex.locate b offset .stringData)
  let (_, rest) ← mapError .malformed (readUleb128 rest)
  let coded := rest.takeWhile (· ≠ 0)
  if coded.length = rest.length then
    throw (.malformed .tag)
  return coded

def string (dex : Dex) (index : Nat) : Fallible Error String := do
  let offset ← finished (Dex.entry .string dex.strings index)
  let coded ← stringData dex.raw offset
  let units ← mapError .mutf8 (decodeUnits coded)
  return String.ofList (Utf16.decode units)

def type (dex : Dex) (index : Nat) : Fallible Error Descriptor := do
  let name ← finished (Dex.entry .type dex.types index)
  let text ← string dex name
  match ← parseDescriptor text with
  | some descriptor => return descriptor
  | none => throw (.invalidDescriptor text)

theorem stringData_eq (b : Bytes) (offset : Nat) :
    stringData b offset = finished (Dex.stringData b offset) := by
  rw [stringData, Dex.stringData]
  refine finished_bind fun rest _ => ?_
  rw [readUleb128_eq, mapError_finished]
  cases Uleb128.read rest with
  | error fault => rfl
  | ok found =>
    show (if _ then _ else _) = finished (if _ then _ else _)
    split <;> rfl

theorem string_eq (dex : Dex) (index : Nat) :
    string dex index = finished (dex.string index) := by
  rw [string, Dex.string]
  refine finished_bind fun offset _ => ?_
  rw [stringData_eq]
  refine finished_bind fun coded _ => ?_
  rw [decodeUnits_eq, mapError_finished, Mutf8.decode]
  cases Mutf8.decodeUnits coded with
  | error fault => rfl
  | ok units => rfl

theorem type_eq (dex : Dex) (index : Nat) : type dex index = finished (dex.type index) := by
  rw [type, Dex.type]
  refine finished_bind fun name _ => ?_
  rw [string_eq]
  refine finished_bind fun text _ => ?_
  rw [parseDescriptor_eq]
  cases Descriptor.parse? text with
  | none => rfl
  | some descriptor => rfl

/-! ## Texts of table entries -/

def protoText (dex : Dex) (proto : ProtoId) : Fallible Error String := do
  let parameters ← proto.parameters.mapM (type dex)
  let returned ← type dex proto.returnType
  return "(" ++ String.join (parameters.map (·.text)) ++ ")" ++ returned.text

def methodText (dex : Dex) (method : MethodId) : Fallible Error String := do
  let definer ← type dex method.definer
  let name ← string dex method.name
  let proto ← finished (Dex.entry .proto dex.protos method.proto)
  let signature ← protoText dex proto
  return definer.text ++ "->" ++ name ++ signature

def fieldText (dex : Dex) (field : FieldId) : Fallible Error String := do
  let definer ← type dex field.definer
  let name ← string dex field.name
  let type ← type dex field.type
  return definer.text ++ "->" ++ name ++ ":" ++ type.text

def referenceText (dex : Dex) (reference : Opcode.Reference) (index : Nat) :
    Fallible Error String :=
  match reference with
  | .string => do return Dex.constantText (← string dex index)
  | .type => do return (← type dex index).text
  | .field => do fieldText dex (← finished (Dex.entry .field dex.fields index))
  | .method => do methodText dex (← finished (Dex.entry .method dex.methods index))
  | .proto => do protoText dex (← finished (Dex.entry .proto dex.protos index))
  | .none | .callSite | .methodHandle => return Instruction.rawReference reference index

theorem protoText_eq (dex : Dex) (proto : ProtoId) :
    protoText dex proto = finished (dex.protoText proto) := by
  rw [protoText, Dex.protoText, finished_mapM fun index _ => type_eq dex index]
  refine finished_bind fun parameters _ => ?_
  rw [type_eq]
  exact finished_bind fun returned _ => rfl

theorem methodText_eq (dex : Dex) (method : MethodId) :
    methodText dex method = finished (dex.methodText method) := by
  rw [methodText, Dex.methodText, type_eq]
  refine finished_bind fun definer _ => ?_
  rw [string_eq]
  refine finished_bind fun name _ => ?_
  refine finished_bind fun proto _ => ?_
  rw [protoText_eq]
  exact finished_bind fun signature _ => rfl

theorem fieldText_eq (dex : Dex) (field : FieldId) :
    fieldText dex field = finished (dex.fieldText field) := by
  rw [fieldText, Dex.fieldText, type_eq]
  refine finished_bind fun definer _ => ?_
  rw [string_eq]
  refine finished_bind fun name _ => ?_
  rw [type_eq]
  exact finished_bind fun type _ => rfl

theorem referenceText_eq (dex : Dex) (reference : Opcode.Reference) (index : Nat) :
    referenceText dex reference index = finished (dex.referenceText reference index) := by
  rw [referenceText.eq_def, Dex.referenceText.eq_def]
  cases reference with
  | none | callSite | methodHandle => rfl
  | string =>
    simp only [string_eq]
    exact finished_bind fun _ _ => rfl
  | type =>
    simp only [type_eq]
    exact finished_bind fun _ _ => rfl
  | field => exact finished_bind fun field _ => fieldText_eq dex field
  | method => exact finished_bind fun method _ => methodText_eq dex method
  | proto => exact finished_bind fun proto _ => protoText_eq dex proto

/-! ## Texts of instructions -/

/-- The address at a signed distance. An address that is not a signed word has none. -/
def offset (a : Address) (distance : Int) : Run (Option Address) :=
  if a < Address.limit then do
    let target ← addSigned 64 a distance
    return if 0 ≤ target then some target.toNat else none
  else
    return none

def mnemonic (i : Instruction) : Run String :=
  match i.operands with
  | .packedSwitch _ _ => return "packed-switch-payload"
  | .sparseSwitch _ => return "sparse-switch-payload"
  | .fillArrayData _ _ => return "fill-array-data-payload"
  | _ => do return ((← describe i.opcode).map (·.mnemonic)).getD "unknown"

/-- What the index operand refers to. -/
def reference (i : Instruction) : Run Opcode.Reference := do
  return ((← describe i.opcode).map (·.reference)).getD .none

/-- First and last register between braces; the sum stops at the largest number of 16 bits. -/
def rangeText (first : Register) (count : Nat) : Run String :=
  if count = 0 then
    return "\x7b\x7d"
  else do
    let last := min (first + (← sub 16 count 1)) 65535
    return "\x7b" ++ Instruction.registerText first ++ " .. " ++ Instruction.registerText last ++
      "\x7d"

theorem offset_eq {a : Nat} {distance : Int} (ha : a < 2 ^ 32) (hd : IsSigned 32 distance) :
    offset a distance = .ok (Address.offset a distance) := by
  obtain ⟨low, high⟩ := hd
  have small : a < Address.limit := Nat.lt_trans ha (by decide)
  -- two numbers of 32 bits cannot leave the words of 64
  have sum : IsSigned 64 (a + distance) := by
    constructor <;> omega
  have fits : (a : Int) + distance < Address.limit := sum.2
  rw [offset, if_pos small, Address.offset]
  refine (run_bind (addSigned_eq sum) _).trans (congrArg Except.ok ?_)
  by_cases before : 0 ≤ (a : Int) + distance
  · rw [if_pos before, if_pos ⟨small, before, fits⟩]
  · rw [if_neg before, if_neg fun h => before h.2.1]

theorem mnemonic_eq (i : Instruction) : mnemonic i = .ok i.mnemonic := by
  obtain ⟨opcode, operands⟩ := i
  simp only [mnemonic, describe_eq]
  cases operands <;> rfl

theorem reference_eq (i : Instruction) : reference i = .ok i.reference := by
  rw [reference, describe_eq]
  rfl

theorem rangeText_eq (first : Register) (count : Nat) :
    rangeText first count = .ok (Instruction.rangeText first count) := by
  rw [rangeText, Instruction.rangeText]
  split
  · rfl
  · rename_i some
    rw [sub_eq (Nat.one_le_iff_ne_zero.mpr some)]
    rfl

/-- Renders an instruction, with `target` for branch distances and `name` for references. -/
def render {ε : Type} (target : Int → Run String)
    (name : Opcode.Reference → Nat → Fallible ε String) (i : Instruction) :
    Fallible ε String := do
  let reg := Instruction.registerText
  let refs ← reference i
  let mnemonic ← mnemonic i
  let operands ← (match i.operands with
    | .none => return ""
    | .reg a => return " " ++ reg a
    | .regs2 a b => return " " ++ reg a ++ ", " ++ reg b
    | .regs3 a b c => return " " ++ reg a ++ ", " ++ reg b ++ ", " ++ reg c
    | .literal a value => return " " ++ reg a ++ ", #" ++ toString value
    | .regsLiteral a b value => return " " ++ reg a ++ ", " ++ reg b ++ ", #" ++ toString value
    | .branch distance => return " " ++ (← target distance)
    | .regBranch a distance => return " " ++ reg a ++ ", " ++ (← target distance)
    | .regsBranch a b distance =>
      return " " ++ reg a ++ ", " ++ reg b ++ ", " ++ (← target distance)
    | .regRef a index => return " " ++ reg a ++ ", " ++ (← name refs index)
    | .regsRef a b index => return " " ++ reg a ++ ", " ++ reg b ++ ", " ++ (← name refs index)
    | .list args index => return " " ++ Instruction.listText args ++ ", " ++ (← name refs index)
    | .range first count index =>
      return " " ++ (← rangeText first count) ++ ", " ++ (← name refs index)
    | .polyList args method proto =>
      return " " ++ Instruction.listText args ++ ", " ++ (← name .method method) ++ ", " ++
        (← name .proto proto)
    | .polyRange first count method proto =>
      return " " ++ (← rangeText first count) ++ ", " ++ (← name .method method) ++ ", " ++
        (← name .proto proto)
    | .packedSwitch firstKey targets =>
      return " " ++ toString firstKey ++ ": [" ++
        Fields.join ", " (targets.map Digits.signed) ++ "]"
    | .sparseSwitch cases =>
      let entry (c : Int × Int) : String := toString c.1 ++ " -> " ++ Digits.signed c.2
      return " [" ++ Fields.join ", " (cases.map entry) ++ "]"
    | .fillArrayData elementWidth count =>
      return " " ++ toString count ++ " x " ++ toString elementWidth ++ " bytes" :
    Fallible ε String)
  return mnemonic ++ operands

/-- Rendering needs a target for the distances of the instruction only. -/
theorem render_eq {ε : Type} {target : Int → Run String} {target' : Int → String}
    {name : Opcode.Reference → Nat → Fallible ε String}
    {name' : Opcode.Reference → Nat → Except ε String} {i : Instruction}
    (ht : ∀ d ∈ i.operands.distances, target d = .ok (target' d))
    (hn : ∀ reference index, name reference index = finished (name' reference index)) :
    render target name i = finished (i.renderWith target' name') := by
  obtain ⟨opcode, operands⟩ := i
  simp only [render, Instruction.renderWith, reference_eq, mnemonic_eq, rangeText_eq, hn, lift_ok,
    pure_bind]
  cases operands with
  | branch distance | regBranch a distance | regsBranch a b distance =>
    simp only [ht distance List.mem_cons_self, lift_ok, pure_bind]
    rfl
  | regRef a index | regsRef a b index | list args index | range first count index =>
    simp only [bind_assoc, pure_bind]
    exact finished_bind fun ref _ => rfl
  | polyList args method proto | polyRange first count method proto =>
    simp only [bind_assoc, pure_bind]
    refine finished_bind fun methodRef _ => ?_
    exact finished_bind fun protoRef _ => rfl
  | _ => rfl

/-- A branch target as an address, or as a distance when it lies before the method. -/
def targetText (addr : Address) (distance : Int) : Run String := do
  match ← offset addr distance with
  | some target => return ":" ++ target.text
  | none => return Digits.signed distance

/-- The form with addresses and names. -/
def text (dex : Dex) (l : Located) : Fallible Error String :=
  render (targetText l.addr) (referenceText dex) l.instr

/-- The form with numbered references, which is always a text. -/
def rawText (target : Int → Run String) (i : Instruction) : Run String := do
  let numbered (reference : Opcode.Reference) (index : Nat) : Fallible Error String :=
    return Instruction.rawReference reference index
  match ← (render target numbered i).run with
  | .ok text => return text
  | .error _ => .error .display

/-- The text of an instruction by names, or by numbers if a name cannot be resolved. -/
def textOrRaw (dex : Dex) (l : Located) : Run String := do
  match ← (text dex l).run with
  | .ok text => return text
  | .error _ => rawText (targetText l.addr) l.instr

theorem targetText_eq {l : Located} (h : l.IsShort) {d : Int}
    (hd : d ∈ l.instr.operands.distances) :
    targetText l.addr d = .ok (Located.targetText l.addr d) := by
  have addr : l.addr < 2 ^ 32 := Nat.lt_of_le_of_lt (Nat.le_add_right _ _) h.nextAddr_lt
  rw [targetText, offset_eq addr (h.isSigned d hd), Located.targetText]
  cases Address.offset l.addr d <;> rfl

theorem text_eq (dex : Dex) {l : Located} (h : l.IsShort) :
    text dex l = finished (l.text dex) :=
  render_eq (fun _ hd => targetText_eq h hd) (referenceText_eq dex)

/-- Writing numbers for references cannot fail. -/
theorem renderWith_pure {ε : Type} (target : Int → String)
    (name : Opcode.Reference → Nat → String) (i : Instruction) :
    (i.renderWith target fun reference index => .ok (name reference index) : Except ε String) =
      .ok (Id.run (i.renderWith target fun reference index => pure (name reference index))) := by
  obtain ⟨opcode, operands⟩ := i
  cases operands <;> rfl

theorem rawText_eq {target : Int → Run String} {target' : Int → String} {i : Instruction}
    (ht : ∀ d ∈ i.operands.distances, target d = .ok (target' d)) :
    rawText target i = .ok (Id.run (i.renderWith target' fun reference index =>
      pure (Instruction.rawReference reference index))) := by
  rw [rawText, render_eq ht fun reference index =>
    (finished_ok (Instruction.rawReference reference index)).symm, renderWith_pure]
  rfl

theorem textOrRaw_eq (dex : Dex) {l : Located} (h : l.IsShort) :
    textOrRaw dex l = .ok (l.textOrRaw dex).value := by
  rw [textOrRaw, text_eq dex h, Located.textOrRaw]
  cases l.text dex with
  | ok text => rfl
  | error e => exact rawText_eq fun _ hd => targetText_eq h hd

end PermissionAudit.Machine
