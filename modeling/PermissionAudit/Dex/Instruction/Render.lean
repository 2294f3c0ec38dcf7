import PermissionAudit.Dex.Instruction.Basic
import PermissionAudit.Text.Fields

/-!
Instructions as text. Branch targets and table references are written by the
caller's functions, so that one renderer serves the raw form, the form with
addresses and the form with names.
-/

namespace PermissionAudit.Instruction

open Fields (join)

def registerText (r : Register) : String := "v" ++ toString r

/-- Registers between braces. -/
def listText (args : List Register) : String :=
  "\x7b" ++ join ", " (args.map registerText) ++ "\x7d"

/-- First and last register between braces; the last one stays a 16-bit number. -/
def rangeText (first : Register) (count : Nat) : String :=
  if count = 0 then
    "\x7b\x7d"
  else
    let last := min (first + (count - 1)) 65535
    "\x7b" ++ registerText first ++ " .. " ++ registerText last ++ "\x7d"

/-- Renders an instruction, with `target` for branch distances and `name` for references. -/
def renderWith {m : Type → Type} [Monad m] (target : Int → String)
    (name : Opcode.Reference → Nat → m String) (i : Instruction) : m String := do
  let reg := registerText
  let operands ← match i.operands with
    | .none => pure ""
    | .reg a => pure (" " ++ reg a)
    | .regs2 a b => pure (" " ++ reg a ++ ", " ++ reg b)
    | .regs3 a b c => pure (" " ++ reg a ++ ", " ++ reg b ++ ", " ++ reg c)
    | .literal a value => pure (" " ++ reg a ++ ", #" ++ toString value)
    | .regsLiteral a b value => pure (" " ++ reg a ++ ", " ++ reg b ++ ", #" ++ toString value)
    | .branch distance => pure (" " ++ target distance)
    | .regBranch a distance => pure (" " ++ reg a ++ ", " ++ target distance)
    | .regsBranch a b distance =>
      pure (" " ++ reg a ++ ", " ++ reg b ++ ", " ++ target distance)
    | .regRef a index => do
      let ref ← name i.reference index
      pure (" " ++ reg a ++ ", " ++ ref)
    | .regsRef a b index => do
      let ref ← name i.reference index
      pure (" " ++ reg a ++ ", " ++ reg b ++ ", " ++ ref)
    | .list args index => do
      let ref ← name i.reference index
      pure (" " ++ listText args ++ ", " ++ ref)
    | .range first count index => do
      let ref ← name i.reference index
      pure (" " ++ rangeText first count ++ ", " ++ ref)
    | .polyList args method proto => do
      let methodRef ← name .method method
      let protoRef ← name .proto proto
      pure (" " ++ listText args ++ ", " ++ methodRef ++ ", " ++ protoRef)
    | .polyRange first count method proto => do
      let methodRef ← name .method method
      let protoRef ← name .proto proto
      pure (" " ++ rangeText first count ++ ", " ++ methodRef ++ ", " ++ protoRef)
    | .packedSwitch firstKey targets =>
      pure (" " ++ toString firstKey ++ ": [" ++ join ", " (targets.map Digits.signed) ++ "]")
    | .sparseSwitch cases =>
      let entry (c : Int × Int) : String := toString c.1 ++ " -> " ++ Digits.signed c.2
      pure (" [" ++ join ", " (cases.map entry) ++ "]")
    | .fillArrayData elementWidth count =>
      pure (" " ++ toString count ++ " x " ++ toString elementWidth ++ " bytes")
  return i.mnemonic ++ operands

/-- A reference by number. -/
def rawReference (reference : Opcode.Reference) (index : Nat) : String :=
  let table := match reference with
    | .none => "#"
    | .string => "string@"
    | .type => "type@"
    | .field => "field@"
    | .method => "method@"
    | .proto => "proto@"
    | .callSite => "call_site@"
    | .methodHandle => "method_handle@"
  table ++ toString index

/-- The raw form: relative targets and numbered references. -/
def rawText (i : Instruction) : String :=
  Id.run (renderWith Digits.signed (fun reference index => pure (rawReference reference index)) i)

end PermissionAudit.Instruction

namespace PermissionAudit.Located

/-- A branch target as an address, or as a distance when it lies before the method. -/
def targetText (addr : Address) (distance : Int) : String :=
  match addr.offset distance with
  | some target => ":" ++ target.text
  | none => Digits.signed distance

/-- The form with addresses and numbered references. -/
def rawText (l : Located) : String :=
  Id.run (l.instr.renderWith (targetText l.addr)
    (fun reference index => pure (Instruction.rawReference reference index)))

end PermissionAudit.Located
