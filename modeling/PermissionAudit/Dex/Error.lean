import PermissionAudit.Bytes.Basic
import PermissionAudit.Dex.Instruction.Decode
import PermissionAudit.Text.Mutf8
import PermissionAudit.Text.Quoted

/-!
What can be wrong with a dex file, and the text of each fault.
-/

namespace PermissionAudit.Dex

/-- The id tables, in the order they are read. -/
inductive Table where
  | strings
  | types
  | protos
  | fields
  | methods
  | classes
deriving DecidableEq

/-- Items that are found by an offset into the file. -/
inductive Item where
  | table (table : Table)
  | typeList
  | classData
  | code
  | stringData
deriving DecidableEq

def Item.name : Item → String
  | .table .strings => "string_ids"
  | .table .types => "type_ids"
  | .table .protos => "proto_ids"
  | .table .fields => "field_ids"
  | .table .methods => "method_ids"
  | .table .classes => "class_defs"
  | .typeList => "type_list"
  | .classData => "class_data_item"
  | .code => "code_item"
  | .stringData => "string_data_item"

/-- Items that are found by their index in a table. -/
inductive Resource where
  | string
  | type
  | proto
  | field
  | method
deriving DecidableEq

def Resource.name : Resource → String
  | .string => "string"
  | .type => "type"
  | .proto => "proto"
  | .field => "field"
  | .method => "method"

inductive Error where
  /-- Bytes are not of the expected form. -/
  | malformed (fault : ReadFault)
  | mutf8 (fault : Mutf8.Fault)
  /-- The magic names a version that is not a number or not a known one. -/
  | unsupportedVersion (version : String)
  | bigEndian
  | endianTag (tag : Nat)
  /-- An offset leads out of the file. -/
  | invalidOffset (item : Item)
  /-- An index leads out of its table. -/
  | notFound (resource : Resource) (index : Nat)
  | invalidDescriptor (text : String)
  | instruction (fault : Instruction.Fault)
deriving DecidableEq

def faultName : ReadFault → String
  | .endOfInput => "Eof"
  | .tag => "Tag"
  | .verify => "Verify"

def Error.message : Error → String
  | .malformed fault => "parsing error (" ++ faultName fault ++ ")"
  | .mutf8 fault => "invalid MUTF-8: " ++ fault.message
  | .unsupportedVersion version => "unsupported dex version " ++ Quoted.quote version
  | .bigEndian => "big-endian dex files are not supported"
  | .endianTag tag => "dex structure is invalid: invalid endian tag 0x" ++ Digits.hex 1 tag
  | .invalidOffset item => "dex " ++ item.name ++ " has invalid offset"
  | .notFound resource index =>
    "resource not found in dex tables: " ++ resource.name ++ " #" ++ toString index
  | .invalidDescriptor text => "invalid type descriptor " ++ Quoted.quote text
  | .instruction (.truncated addr) => "truncated instruction (address: " ++ addr.text ++ ")"
  | .instruction (.unknownOpcode opcode addr) =>
    "unknown opcode 0x" ++ Digits.hex 2 opcode ++ " (address: " ++ addr.text ++ ")"
  | .instruction (.argumentCount count addr) =>
    "dex structure is invalid: invalid argument count " ++ toString count ++
      " (address: " ++ addr.text ++ ")"

end PermissionAudit.Dex
