import PermissionAudit.Bytes.Basic
import PermissionAudit.Text.Utf16

/-!
UTF-8. `decode?` accepts exactly the well-formed byte strings; `decodeLossy`
puts `U+FFFD` for each longest run of bytes that starts a character and does
not finish it.
-/

namespace PermissionAudit.Utf8

/-- The coding of a text. -/
def encode (s : String) : Bytes := s.toList.flatMap String.utf8EncodeChar

/-- Range of the second byte after the lead byte `a` of three or four bytes. It keeps out
overlong forms, surrogates and numbers above `U+10FFFF`. -/
def secondRange (a : Nat) : Nat × Nat :=
  if a = 0xE0 then (0xA0, 0xBF)
  else if a = 0xED then (0x80, 0x9F)
  else if a = 0xF0 then (0x90, 0xBF)
  else if a = 0xF4 then (0x80, 0x8F)
  else (0x80, 0xBF)

def within (range : Nat × Nat) (b : UInt8) : Bool := range.1 ≤ b.toNat && b.toNat ≤ range.2

/-- A byte `10xxxxxx`. -/
def isContinuation (b : UInt8) : Bool := within (0x80, 0xBF) b

/-- The characters of the bytes, `none` standing for a run that is not a character. -/
def scan : Bytes → List (Option Char)
  | [] => []
  | a :: rest =>
    let lead := a.toNat
    if lead < 0x80 then
      some (Char.ofNat lead) :: scan rest
    else if 0xC2 ≤ lead && lead ≤ 0xDF then
      match rest with
      | [] => [none]
      | b :: rest' =>
        if isContinuation b then
          some (Char.ofNat (lead % 32 * 64 + b.toNat % 64)) :: scan rest'
        else
          none :: scan (b :: rest')
    else if 0xE0 ≤ lead && lead ≤ 0xEF then
      match rest with
      | [] => [none]
      | b :: rest' =>
        if within (secondRange lead) b then
          match rest' with
          | [] => [none]
          | c :: rest'' =>
            if isContinuation c then
              some (Char.ofNat (lead % 16 * 4096 + b.toNat % 64 * 64 + c.toNat % 64)) ::
                scan rest''
            else
              none :: scan (c :: rest'')
        else
          none :: scan (b :: rest')
    else if 0xF0 ≤ lead && lead ≤ 0xF4 then
      match rest with
      | [] => [none]
      | b :: rest' =>
        if within (secondRange lead) b then
          match rest' with
          | [] => [none]
          | c :: rest'' =>
            if isContinuation c then
              match rest'' with
              | [] => [none]
              | d :: rest''' =>
                if isContinuation d then
                  some (Char.ofNat (lead % 8 * 262144 + b.toNat % 64 * 4096 + c.toNat % 64 * 64 +
                    d.toNat % 64)) :: scan rest'''
                else
                  none :: scan (d :: rest''')
            else
              none :: scan (c :: rest'')
        else
          none :: scan (b :: rest')
    else
      none :: scan rest

/-- The text of well-formed bytes. -/
def decode? (b : Bytes) : Option String := ((scan b).mapM id).map String.ofList

/-- The text of any bytes. -/
def decodeLossy (b : Bytes) : String :=
  String.ofList ((scan b).map fun c => c.getD Utf16.replacement)

end PermissionAudit.Utf8
