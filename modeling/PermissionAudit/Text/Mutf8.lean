import PermissionAudit.Bytes.Basic
import PermissionAudit.Text.Digits
import PermissionAudit.Text.Utf16

/-!
Modified UTF-8, the coding of strings in dex files: every 16-bit unit of the
text is coded on its own, in one to three bytes, and the zero unit takes two.
-/

namespace PermissionAudit.Mutf8

/-- Why bytes are not modified UTF-8. -/
inductive Fault where
  | nullByte
  | leadByte (byte : UInt8)
  | continuationByte
  | truncated
deriving DecidableEq

def Fault.message : Fault → String
  | .nullByte => "null byte inside string data"
  | .leadByte byte => "bad byte 0x" ++ Digits.hex 2 byte.toNat
  | .continuationByte => "bad continuation byte"
  | .truncated => "truncated sequence"

/-- A byte `10xxxxxx`. -/
def isContinuation (b : UInt8) : Bool := b.toNat / 64 = 2

/-- The six low bits of a continuation byte. -/
def payload (b : UInt8) : Nat := b.toNat % 64

/-- The units that the bytes code. -/
def decodeUnits : Bytes → Except Fault (List UInt16)
  | [] => .ok []
  | a :: rest =>
    if a.toNat = 0 then
      .error .nullByte
    else if a.toNat < 0x80 then
      (decodeUnits rest).map (UInt16.ofNat a.toNat :: ·)
    else if a.toNat / 32 = 6 then
      match rest with
      | [] => .error .truncated
      | b :: rest =>
        if isContinuation b then
          (decodeUnits rest).map (UInt16.ofNat (a.toNat % 32 * 64 + payload b) :: ·)
        else
          .error .continuationByte
    else if a.toNat / 16 = 14 then
      match rest with
      | [] => .error .truncated
      | b :: rest =>
        if isContinuation b then
          match rest with
          | [] => .error .truncated
          | c :: rest =>
            if isContinuation c then
              (decodeUnits rest).map
                (UInt16.ofNat (a.toNat % 16 * 4096 + payload b * 64 + payload c) :: ·)
            else
              .error .continuationByte
        else
          .error .continuationByte
    else
      .error (.leadByte a)

/-- The text that the bytes code; a surrogate without its partner becomes `U+FFFD`. -/
def decode (b : Bytes) : Except Fault String :=
  (decodeUnits b).map fun units => String.ofList (Utf16.decode units)

/-- The bytes of one unit. -/
def encodeUnit (u : UInt16) : Bytes :=
  let n := u.toNat
  if n = 0 then
    [0xC0, 0x80]
  else if n < 0x80 then
    [UInt8.ofNat n]
  else if n < 0x800 then
    [UInt8.ofNat (0xC0 + n / 64), UInt8.ofNat (0x80 + n % 64)]
  else
    [UInt8.ofNat (0xE0 + n / 4096), UInt8.ofNat (0x80 + n / 64 % 64), UInt8.ofNat (0x80 + n % 64)]

/-- The coding of a text. -/
def encode (s : String) : Bytes := (Utf16.encode s.toList).flatMap encodeUnit

end PermissionAudit.Mutf8
