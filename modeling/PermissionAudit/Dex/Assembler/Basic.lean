import PermissionAudit.Dex.Flags
import PermissionAudit.Sequence.KeyMap
import PermissionAudit.Text.Utf8

/-!
An assembler of dex files. Strings, types, prototypes and method references are
interned: asking for the same one again gives the index it already has, and an
index never changes its meaning.
-/

namespace PermissionAudit

/-- A table beside the map that leads from the keys of its items to their indices. -/
structure Pool (α : Type) where
  items : List α := []
  indices : KeyMap Nat := .leaf
deriving DecidableEq

namespace Pool

variable {α : Type}

def size (p : Pool α) : Nat := p.items.length

/-- The index of the item with a key. -/
def find? (p : Pool α) (key : String) : Option Nat := p.indices.get? key

/-- Adds an item at the end, and its index under its key. -/
def push (p : Pool α) (key : String) (item : α) : Pool α :=
  ⟨p.items ++ [item], p.indices.insert key p.items.length⟩

end Pool

namespace Assembler

/-- A prototype: its short form, its return type and its parameters. -/
structure Proto where
  shorty : Nat
  returnType : Nat
  parameters : List Nat
deriving DecidableEq

/-- A field or method reference: its class, its type or prototype, and its name. -/
structure Member where
  definer : Nat
  signature : Nat
  name : Nat
deriving DecidableEq

/-- A method that a class declares. -/
structure Method where
  index : Nat
  flags : Nat
  code : Option (List UInt16)
deriving DecidableEq

structure Class where
  type : Nat
  flags : Nat
  superclass : Option Nat
  interfaces : List Nat := []
  direct : List Method := []
  virtual : List Method := []
deriving DecidableEq

end Assembler

/-- What was asked for so far. -/
structure Assembler where
  /-- Strings are their own keys. -/
  strings : Pool String := {}
  /-- The string of each descriptor; types are found by their descriptors. -/
  types : Pool Nat := {}
  protos : Pool Assembler.Proto := {}
  fields : List Assembler.Member := []
  methods : Pool Assembler.Member := {}
  classes : List Assembler.Class := []
  /-- The three version digits of the magic. -/
  version : List UInt8 := [0x30, 0x33, 0x35]
deriving DecidableEq

/-- A step of the assembler. -/
abbrev Assemble (α : Type) := StateM Assembler α

namespace Assembler

/-- Sets the version digits, at most three; missing ones are zeros. -/
def setVersion (version : String) : Assemble Unit :=
  let digits := (Utf8.encode version).take 3
  modify fun a => { a with version := digits ++ List.replicate (3 - digits.length) 0x30 }

/-- The index of a string, added when it is new. -/
def string (s : String) : Assemble Nat :=
  modifyGet fun a =>
    match a.strings.find? s with
    | some index => (index, a)
    | none => (a.strings.size, { a with strings := a.strings.push s s })

/-- The index of a type, added when it is new. -/
def type (descriptor : String) : Assemble Nat := do
  match (← get).types.find? descriptor with
  | some index => return index
  | none =>
    let name ← string descriptor
    modifyGet fun a => (a.types.size, { a with types := a.types.push descriptor name })

/-- The letter of a type in a short form; classes and arrays share one. -/
def shortyChar (descriptor : String) : Char :=
  match descriptor.toList with
  | [] => 'L'
  | '[' :: _ => 'L'
  | c :: _ => c

/-- Parameters between parentheses, then the return type. -/
def protoKey (returnType : String) (parameters : List String) : String :=
  "(" ++ String.join parameters ++ ")" ++ returnType

/-- The index of a prototype, added when it is new. -/
def proto (returnType : String) (parameters : List String) : Assemble Nat := do
  let key := protoKey returnType parameters
  match (← get).protos.find? key with
  | some index => return index
  | none =>
    let shorty ← string (String.ofList ((returnType :: parameters).map shortyChar))
    let returned ← type returnType
    let parameters ← parameters.mapM type
    modifyGet fun a =>
      (a.protos.size, { a with protos := a.protos.push key ⟨shorty, returned, parameters⟩ })

/-- Adds a field reference. -/
def fieldRef (definer name fieldType : String) : Assemble Nat := do
  let definer ← type definer
  let fieldType ← type fieldType
  let name ← string name
  modifyGet fun a =>
    (a.fields.length, { a with fields := a.fields ++ [⟨definer, fieldType, name⟩] })

/-- The definer, the name and the prototype of a method. -/
def methodKey (definer name returnType : String) (parameters : List String) : String :=
  definer ++ "->" ++ name ++ protoKey returnType parameters

/-- The index of a method reference, added when it is new. -/
def methodRef (definer name returnType : String) (parameters : List String) :
    Assemble Nat := do
  let key := methodKey definer name returnType parameters
  match (← get).methods.find? key with
  | some index => return index
  | none =>
    let definer ← type definer
    let signature ← proto returnType parameters
    let name ← string name
    modifyGet fun a =>
      (a.methods.size, { a with methods := a.methods.push key ⟨definer, signature, name⟩ })

/-- Starts a public class and returns its handle. -/
def addClass (descriptor : String) (superclass : Option String) : Assemble Nat := do
  let index ← type descriptor
  let superclass ← superclass.mapM type
  modifyGet fun a =>
    (a.classes.length,
      { a with classes := a.classes ++ [{ type := index, flags := 1, superclass }] })

/-- Changes the class with a handle. -/
def modifyClass (handle : Nat) (change : Class → Class) : Assemble Unit :=
  modify fun a => { a with classes := a.classes.modify handle change }

/-- Adds an interface to a class. -/
def implement (handle : Nat) (descriptor : String) : Assemble Unit := do
  let index ← type descriptor
  modifyClass handle fun c => { c with interfaces := c.interfaces ++ [index] }

def setClassFlags (handle : Nat) (flags : Nat) : Assemble Unit :=
  modifyClass handle fun c => { c with flags }

/-- The descriptor of the class with a handle. -/
def classDescriptor? (a : Assembler) (handle : Nat) : Option String := do
  let c ← a.classes[handle]?
  let name ← a.types.items[c.type]?
  a.strings.items[name]?

/-- Declares a method of a class and returns its reference. Static, private and constructor
methods are direct, the others are virtual. A handle that no class has declares nothing. -/
def defineMethod (handle : Nat) (name returnType : String) (parameters : List String)
    (flags : Nat) (code : Option (List UInt16)) : Assemble (Option Nat) := do
  match (← get).classDescriptor? handle with
  | none => return none
  | some definer =>
    let index ← methodRef definer name returnType parameters
    let method : Method := ⟨index, flags, code⟩
    modifyClass handle fun c =>
      if Dex.MethodFlags.isDirect flags then
        { c with direct := c.direct ++ [method] }
      else
        { c with virtual := c.virtual ++ [method] }
    return some index

end Assembler

end PermissionAudit
