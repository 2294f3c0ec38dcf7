import PermissionAudit.Text.Fields

/-!
Type descriptors: a letter for a primitive type, `Lname;` for a class, and one
bracket per dimension in front of the element type of an array.
-/

namespace PermissionAudit

/-- A type, as its descriptor names it. -/
inductive Descriptor where
  | void
  | boolean
  | byte
  | short
  | char
  | int
  | long
  | float
  | double
  /-- An array of the given number of dimensions. -/
  | array (dimensions : Nat) (element : Descriptor)
  /-- A class, its name with slashes (`java/lang/Object`). -/
  | object (name : String)
deriving DecidableEq

namespace Descriptor

/-- Arrays have fewer dimensions than this. -/
def dimensionLimit : Nat := 256

/-- The type after the brackets; `void` is not an element type. -/
def parseElement? : List Char → Option Descriptor
  | ['Z'] => some .boolean
  | ['B'] => some .byte
  | ['S'] => some .short
  | ['C'] => some .char
  | ['I'] => some .int
  | ['J'] => some .long
  | ['F'] => some .float
  | ['D'] => some .double
  | 'L' :: body =>
    if body.getLast? = some ';' ∧ 2 ≤ body.length then
      some (.object (String.ofList body.dropLast))
    else
      none
  | _ => none

/-- The type a descriptor names. -/
def parse? (s : String) : Option Descriptor :=
  let cs := s.toList
  if cs = ['V'] then
    some .void
  else
    let dimensions := (cs.takeWhile (· = '[')).length
    if dimensionLimit ≤ dimensions then
      none
    else
      (parseElement? (cs.drop dimensions)).map fun element =>
        if dimensions = 0 then element else .array dimensions element

/-- The descriptor. -/
def text : Descriptor → String
  | .void => "V"
  | .boolean => "Z"
  | .byte => "B"
  | .short => "S"
  | .char => "C"
  | .int => "I"
  | .long => "J"
  | .float => "F"
  | .double => "D"
  | .array dimensions element => String.ofList (List.replicate dimensions '[') ++ element.text
  | .object name => "L" ++ name ++ ";"

/-- The name used in programs (`java.lang.Object`, `int[]`). -/
def sourceName : Descriptor → String
  | .void => "void"
  | .boolean => "boolean"
  | .byte => "byte"
  | .short => "short"
  | .char => "char"
  | .int => "int"
  | .long => "long"
  | .float => "float"
  | .double => "double"
  | .array dimensions element =>
    element.sourceName ++ String.join (List.replicate dimensions "[]")
  | .object name => Fields.replace '/' '.' name

def isArray : Descriptor → Bool
  | .array _ _ => true
  | _ => false

end Descriptor

end PermissionAudit
