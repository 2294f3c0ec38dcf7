import PermissionAudit.Bytes.Uleb128
import PermissionAudit.Dex.Flags

/-!
Class data: the fields and methods that a class declares, as a run of ULEB128
numbers. Fields are passed over; method indices are written as differences.
-/

namespace PermissionAudit.Dex

structure EncodedMethod where
  /-- Position in the method table. -/
  index : Nat
  flags : Nat
  /-- Where the code lies, if there is some. -/
  codeOffset : Option Nat
deriving DecidableEq

def EncodedMethod.hasCode (m : EncodedMethod) : Bool := m.codeOffset.isSome

structure ClassData where
  direct : List EncodedMethod
  virtual : List EncodedMethod
deriving DecidableEq

namespace ClassData

/-- Direct methods, then virtual ones. -/
def methods (d : ClassData) : List EncodedMethod := d.direct ++ d.virtual

/-- Passes over `count` pairs of numbers. -/
def skipPairs : Nat → Bytes → Except ReadFault Bytes
  | 0, b => .ok b
  | count + 1, b => do
    let (_, b) ← Uleb128.read b
    let (_, b) ← Uleb128.read b
    skipPairs count b

/-- Reads `count` methods; each index adds to the one before. -/
def readMethods : Nat → Nat → Bytes → Except ReadFault (List EncodedMethod × Bytes)
  | 0, _, b => .ok ([], b)
  | count + 1, previous, b => do
    let (difference, b) ← Uleb128.read b
    let (flags, b) ← Uleb128.read b
    let (offset, b) ← Uleb128.read b
    let index := previous + difference
    let (later, b) ← readMethods count index b
    let codeOffset := if offset = 0 then none else some offset
    return (⟨index, MethodFlags.truncate flags, codeOffset⟩ :: later, b)

def read (b : Bytes) : Except ReadFault ClassData := do
  let (staticFields, b) ← Uleb128.read b
  let (instanceFields, b) ← Uleb128.read b
  let (directMethods, b) ← Uleb128.read b
  let (virtualMethods, b) ← Uleb128.read b
  let b ← skipPairs staticFields b
  let b ← skipPairs instanceFields b
  let (direct, b) ← readMethods directMethods 0 b
  let (virtual, _) ← readMethods virtualMethods 0 b
  return ⟨direct, virtual⟩

end ClassData

end PermissionAudit.Dex
