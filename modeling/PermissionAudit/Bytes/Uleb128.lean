import PermissionAudit.Bytes.Basic

/-!
Unsigned numbers in groups of seven bits, least significant group first; every
group but the last has its high bit set. Values have 32 bits, hence at most
five groups.
-/

namespace PermissionAudit.Uleb128

/-- The most groups a value may take. -/
def maxGroups : Nat := 5

/-- A group with another one after it. -/
def continues (b : UInt8) : Bool := 0x80 ≤ b.toNat

/-- The number that the groups denote, modulo `2 ^ 32`. -/
def value : List UInt8 → Nat
  | [] => 0
  | b :: rest => (b.toNat % 128 + 128 * value rest) % 0x100000000

/-- Reads one value and returns it with the bytes after it. -/
def read (b : Bytes) : Except ReadFault (Nat × Bytes) :=
  let leading := (b.take maxGroups).takeWhile continues
  if leading.length = maxGroups then
    .error .verify
  else
    match b.drop leading.length with
    | [] => .error .endOfInput
    | last :: rest => .ok (value (leading ++ [last]), rest)

/-- Writes `n` in at most `more + 1` groups. -/
def writeGroups : Nat → Nat → Bytes
  | 0, n => [UInt8.ofNat n]
  | more + 1, n =>
    if n < 128 then
      [UInt8.ofNat n]
    else
      UInt8.ofNat (n % 128 + 128) :: writeGroups more (n / 128)

/-- The shortest form of a 32-bit value. -/
def write (n : Nat) : Bytes := writeGroups (maxGroups - 1) n

end PermissionAudit.Uleb128
