/-!
The opcodes of Dalvik code: how each is written, which layout its operands have
and which table its index operand refers to. Opcodes that share a layout and a
table stand in families of consecutive numbers.
-/

namespace PermissionAudit.Opcode

/-- Operand layouts. The first digit of the name is the size in units. -/
inductive Format where
  | f10x | f12x | f11n | f11x | f10t
  | f20t | f22x | f21t | f21s | f21h | f21c | f23x | f22b | f22t | f22s | f22c
  | f32x | f30t | f31t | f31i | f31c | f35c | f3rc
  | f45cc | f4rcc
  | f51l
deriving DecidableEq

/-- Size of an instruction of this layout, in units. -/
def Format.units : Format → Nat
  | .f10x | .f12x | .f11n | .f11x | .f10t => 1
  | .f20t | .f22x | .f21t | .f21s | .f21h | .f21c | .f23x | .f22b | .f22t | .f22s | .f22c => 2
  | .f32x | .f30t | .f31t | .f31i | .f31c | .f35c | .f3rc => 3
  | .f45cc | .f4rcc => 4
  | .f51l => 5

theorem Format.units_pos (format : Format) : 0 < format.units := by
  cases format <;> decide

/-- What an index operand refers to. -/
inductive Reference where
  | none
  | string
  | type
  | field
  | method
  | proto
  | callSite
  | methodHandle
deriving DecidableEq

/-- Consecutive opcodes of one layout, from `first` on. -/
structure Family where
  first : Nat
  format : Format
  reference : Reference
  mnemonics : List String

/-- Ways of accessing a field or an array element. -/
def accesses : List String :=
  ["", "-wide", "-object", "-boolean", "-byte", "-char", "-short"]

/-- Kinds of calls, in opcode order. -/
def calls : List String :=
  ["invoke-virtual", "invoke-super", "invoke-direct", "invoke-static", "invoke-interface"]

/-- Operators of three registers, in opcode order. -/
def binary : List String := [
  "add-int", "sub-int", "mul-int", "div-int", "rem-int", "and-int", "or-int", "xor-int",
  "shl-int", "shr-int", "ushr-int",
  "add-long", "sub-long", "mul-long", "div-long", "rem-long", "and-long", "or-long", "xor-long",
  "shl-long", "shr-long", "ushr-long",
  "add-float", "sub-float", "mul-float", "div-float", "rem-float",
  "add-double", "sub-double", "mul-double", "div-double", "rem-double"]

/-- All families, in opcode order. -/
def families : List Family := [
  ⟨0x00, .f10x, .none, ["nop"]⟩,
  ⟨0x01, .f12x, .none, ["move"]⟩,
  ⟨0x02, .f22x, .none, ["move/from16"]⟩,
  ⟨0x03, .f32x, .none, ["move/16"]⟩,
  ⟨0x04, .f12x, .none, ["move-wide"]⟩,
  ⟨0x05, .f22x, .none, ["move-wide/from16"]⟩,
  ⟨0x06, .f32x, .none, ["move-wide/16"]⟩,
  ⟨0x07, .f12x, .none, ["move-object"]⟩,
  ⟨0x08, .f22x, .none, ["move-object/from16"]⟩,
  ⟨0x09, .f32x, .none, ["move-object/16"]⟩,
  ⟨0x0a, .f11x, .none,
    ["move-result", "move-result-wide", "move-result-object", "move-exception"]⟩,
  ⟨0x0e, .f10x, .none, ["return-void"]⟩,
  ⟨0x0f, .f11x, .none, ["return", "return-wide", "return-object"]⟩,
  ⟨0x12, .f11n, .none, ["const/4"]⟩,
  ⟨0x13, .f21s, .none, ["const/16"]⟩,
  ⟨0x14, .f31i, .none, ["const"]⟩,
  ⟨0x15, .f21h, .none, ["const/high16"]⟩,
  ⟨0x16, .f21s, .none, ["const-wide/16"]⟩,
  ⟨0x17, .f31i, .none, ["const-wide/32"]⟩,
  ⟨0x18, .f51l, .none, ["const-wide"]⟩,
  ⟨0x19, .f21h, .none, ["const-wide/high16"]⟩,
  ⟨0x1a, .f21c, .string, ["const-string"]⟩,
  ⟨0x1b, .f31c, .string, ["const-string/jumbo"]⟩,
  ⟨0x1c, .f21c, .type, ["const-class"]⟩,
  ⟨0x1d, .f11x, .none, ["monitor-enter", "monitor-exit"]⟩,
  ⟨0x1f, .f21c, .type, ["check-cast"]⟩,
  ⟨0x20, .f22c, .type, ["instance-of"]⟩,
  ⟨0x21, .f12x, .none, ["array-length"]⟩,
  ⟨0x22, .f21c, .type, ["new-instance"]⟩,
  ⟨0x23, .f22c, .type, ["new-array"]⟩,
  ⟨0x24, .f35c, .type, ["filled-new-array"]⟩,
  ⟨0x25, .f3rc, .type, ["filled-new-array/range"]⟩,
  ⟨0x26, .f31t, .none, ["fill-array-data"]⟩,
  ⟨0x27, .f11x, .none, ["throw"]⟩,
  ⟨0x28, .f10t, .none, ["goto"]⟩,
  ⟨0x29, .f20t, .none, ["goto/16"]⟩,
  ⟨0x2a, .f30t, .none, ["goto/32"]⟩,
  ⟨0x2b, .f31t, .none, ["packed-switch", "sparse-switch"]⟩,
  ⟨0x2d, .f23x, .none,
    ["cmpl-float", "cmpg-float", "cmpl-double", "cmpg-double", "cmp-long"]⟩,
  ⟨0x32, .f22t, .none, ["if-eq", "if-ne", "if-lt", "if-ge", "if-gt", "if-le"]⟩,
  ⟨0x38, .f21t, .none, ["if-eqz", "if-nez", "if-ltz", "if-gez", "if-gtz", "if-lez"]⟩,
  ⟨0x44, .f23x, .none, accesses.map ("aget" ++ ·) ++ accesses.map ("aput" ++ ·)⟩,
  ⟨0x52, .f22c, .field, accesses.map ("iget" ++ ·) ++ accesses.map ("iput" ++ ·)⟩,
  ⟨0x60, .f21c, .field, accesses.map ("sget" ++ ·) ++ accesses.map ("sput" ++ ·)⟩,
  ⟨0x6e, .f35c, .method, calls⟩,
  ⟨0x74, .f3rc, .method, calls.map (· ++ "/range")⟩,
  ⟨0x7b, .f12x, .none, [
    "neg-int", "not-int", "neg-long", "not-long", "neg-float", "neg-double",
    "int-to-long", "int-to-float", "int-to-double", "long-to-int", "long-to-float",
    "long-to-double", "float-to-int", "float-to-long", "float-to-double", "double-to-int",
    "double-to-long", "double-to-float", "int-to-byte", "int-to-char", "int-to-short"]⟩,
  ⟨0x90, .f23x, .none, binary⟩,
  ⟨0xb0, .f12x, .none, binary.map (· ++ "/2addr")⟩,
  ⟨0xd0, .f22s, .none, [
    "add-int/lit16", "rsub-int", "mul-int/lit16", "div-int/lit16", "rem-int/lit16",
    "and-int/lit16", "or-int/lit16", "xor-int/lit16"]⟩,
  ⟨0xd8, .f22b, .none, [
    "add-int/lit8", "rsub-int/lit8", "mul-int/lit8", "div-int/lit8", "rem-int/lit8",
    "and-int/lit8", "or-int/lit8", "xor-int/lit8", "shl-int/lit8", "shr-int/lit8",
    "ushr-int/lit8"]⟩,
  ⟨0xfa, .f45cc, .method, ["invoke-polymorphic"]⟩,
  ⟨0xfb, .f4rcc, .method, ["invoke-polymorphic/range"]⟩,
  ⟨0xfc, .f35c, .callSite, ["invoke-custom"]⟩,
  ⟨0xfd, .f3rc, .callSite, ["invoke-custom/range"]⟩,
  ⟨0xfe, .f21c, .methodHandle, ["const-method-handle"]⟩,
  ⟨0xff, .f21c, .proto, ["const-method-type"]⟩]

/-- What is known of one opcode. -/
structure Description where
  mnemonic : String
  format : Format
  reference : Reference
deriving DecidableEq

/-- The entry of a family for `opcode`. -/
def Family.describe? (family : Family) (opcode : Nat) : Option Description :=
  if family.first ≤ opcode then
    family.mnemonics[opcode - family.first]?.map (⟨·, family.format, family.reference⟩)
  else
    none

/-- The description of an opcode; the numbers between the families are not opcodes. -/
def describe? (opcode : Nat) : Option Description :=
  families.findSome? (·.describe? opcode)

end PermissionAudit.Opcode
