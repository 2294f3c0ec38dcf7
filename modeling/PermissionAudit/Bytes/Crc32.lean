import PermissionAudit.Bytes.Basic

/-! The CRC-32 of archives, with the reflected polynomial `0xEDB88320`. -/

namespace PermissionAudit.Crc32

/-- Shifts the register by one bit. -/
def shift (r : UInt32) : UInt32 :=
  if r &&& 1 = 1 then (r >>> 1) ^^^ 0xEDB88320 else r >>> 1

/-- Takes one byte into the register. -/
def step (r : UInt32) (b : UInt8) : UInt32 :=
  shift (shift (shift (shift (shift (shift (shift (shift (r ^^^ b.toUInt32))))))))

def checksum (b : Bytes) : UInt32 := (b.foldl step 0xFFFFFFFF) ^^^ 0xFFFFFFFF

end PermissionAudit.Crc32
