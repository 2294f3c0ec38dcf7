/-!
Byte strings and little-endian numbers. Reading is by position: a number that
lies past the end reads as if the missing bytes were zero, and the readers of
the file formats check lengths before they read.
-/

namespace PermissionAudit

abbrev Bytes := List UInt8

/-- Why a byte string is not of the expected form. -/
inductive ReadFault where
  /-- The input ends inside an item. -/
  | endOfInput
  /-- Fixed bytes are not the expected ones. -/
  | tag
  /-- An item was read and its value is refused. -/
  | verify
deriving DecidableEq

namespace Bytes

/-- The byte at position `i`, as a number. -/
def byteAt (b : Bytes) (i : Nat) : Nat := (b[i]?.getD 0).toNat

/-- The 16-bit number at position `i`. -/
def u16At (b : Bytes) (i : Nat) : Nat := byteAt b i + 256 * byteAt b (i + 1)

/-- The 32-bit number at position `i`. -/
def u32At (b : Bytes) (i : Nat) : Nat := u16At b i + 65536 * u16At b (i + 2)

/-- The low 16 bits of a number, in two bytes. -/
def le16 (n : Nat) : Bytes := [UInt8.ofNat n, UInt8.ofNat (n / 256)]

/-- The low 32 bits of a number, in four bytes. -/
def le32 (n : Nat) : Bytes := le16 n ++ le16 (n / 65536)

/-- The first `count` records of `size` bytes each. -/
def chunks (size : Nat) : Nat → Bytes → List Bytes
  | 0, _ => []
  | count + 1, b => b.take size :: chunks size count (b.drop size)

/-- The bytes as consecutive 16-bit units; an odd last byte is left out. -/
def units : Bytes → List UInt16
  | lo :: hi :: rest => (lo.toUInt16 + 256 * hi.toUInt16) :: units rest
  | _ => []

/-- Units written one after another. -/
def ofUnits (us : List UInt16) : Bytes := us.flatMap fun u => le16 u.toNat

end Bytes

end PermissionAudit
