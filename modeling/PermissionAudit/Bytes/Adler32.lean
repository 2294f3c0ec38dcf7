import PermissionAudit.Bytes.Basic

/-! The Adler-32 checksum: two running sums modulo the largest prime below `2 ^ 16`. -/

namespace PermissionAudit.Adler32

def modulus : Nat := 65521

/-- Takes one byte into the pair of running sums. -/
def step (sums : Nat × Nat) (b : UInt8) : Nat × Nat :=
  let low := (sums.1 + b.toNat) % modulus
  (low, (sums.2 + low) % modulus)

def checksum (b : Bytes) : Nat :=
  let sums := b.foldl step (1, 0)
  sums.1 + 65536 * sums.2

end PermissionAudit.Adler32
