/-!
Text as 16-bit units: a character above `U+FFFF` is a pair of surrogates.
Decoding is total and puts `U+FFFD` for a surrogate without its partner.
-/

namespace PermissionAudit.Utf16

/-- What stands for something that is not a character. -/
def replacement : Char := Char.ofNat 0xFFFD

def isHigh (u : UInt16) : Bool := 0xD800 ≤ u.toNat && u.toNat < 0xDC00

def isLow (u : UInt16) : Bool := 0xDC00 ≤ u.toNat && u.toNat < 0xE000

/-- The character of a surrogate pair. -/
def ofPair (hi lo : UInt16) : Char :=
  Char.ofNat (0x10000 + 1024 * (hi.toNat - 0xD800) + (lo.toNat - 0xDC00))

/-- The units of one character. -/
def encodeChar (c : Char) : List UInt16 :=
  if c.toNat < 0x10000 then
    [UInt16.ofNat c.toNat]
  else
    [UInt16.ofNat (0xD800 + (c.toNat - 0x10000) / 1024),
      UInt16.ofNat (0xDC00 + (c.toNat - 0x10000) % 1024)]

def encode (cs : List Char) : List UInt16 := cs.flatMap encodeChar

/-- The characters that units spell. -/
def decode : List UInt16 → List Char
  | [] => []
  | u :: rest =>
    if isHigh u then
      match rest with
      | [] => [replacement]
      | v :: rest' =>
        if isLow v then ofPair u v :: decode rest' else replacement :: decode (v :: rest')
    else if isLow u then
      replacement :: decode rest
    else
      Char.ofNat u.toNat :: decode rest

end PermissionAudit.Utf16
