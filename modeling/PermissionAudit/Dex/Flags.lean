/-!
Access flags of classes and methods. Bits without a meaning are dropped when
flags are read.
-/

namespace PermissionAudit.Dex

namespace ClassFlags

/-- The bits with a meaning for classes. -/
def known : Nat := 0x761F

/-- The flags with unknown bits dropped. -/
def truncate (bits : Nat) : Nat := bits &&& known

end ClassFlags

namespace MethodFlags

def privateBit : Nat := 0x0002
def staticBit : Nat := 0x0008
def nativeBit : Nat := 0x0100
def abstractBit : Nat := 0x0400
def constructorBit : Nat := 0x10000

/-- The bits with a meaning for methods. -/
def known : Nat := 0x31DFF

/-- The flags with unknown bits dropped. -/
def truncate (bits : Nat) : Nat := bits &&& known

/-- Whether some bit of `mask` is set. -/
def intersects (bits mask : Nat) : Bool := bits &&& mask ≠ 0

/-- Methods that never have code of their own. -/
def isBodiless (bits : Nat) : Bool := intersects bits (abstractBit ||| nativeBit)

/-- Methods that are listed as direct ones. -/
def isDirect (bits : Nat) : Bool :=
  intersects bits (staticBit ||| privateBit ||| constructorBit)

end MethodFlags

end PermissionAudit.Dex
