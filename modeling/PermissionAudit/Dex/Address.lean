import PermissionAudit.Text.Digits

/-!
Positions in a method's code, in 16-bit units from its start.
-/

namespace PermissionAudit

abbrev Address := Nat

namespace Address

/-- The start of a method. -/
def entry : Address := 0

/-- At least four hexadecimal digits. -/
def text (a : Address) : String := Digits.hex 4 a

/-- Addresses stay below this bound, so that an address with an offset is a signed word. -/
def limit : Nat := 0x8000000000000000

/-- The address at a signed distance; none lies before the start of the method. -/
def offset (a : Address) (distance : Int) : Option Address :=
  let target := (a : Int) + distance
  if a < limit ∧ 0 ≤ target ∧ target < limit then some target.toNat else none

end Address

end PermissionAudit
