/-!
Numbers as text: hexadecimal with a least width, and decimals with a sign.
-/

namespace PermissionAudit.Digits

/-- Lower-case hexadecimal digits of a number. -/
def hexDigits (n : Nat) : List Char := Nat.toDigits 16 n

/-- Digits filled with zeros on the left up to `width`. -/
def padLeft (width : Nat) (digits : List Char) : List Char :=
  List.replicate (width - digits.length) '0' ++ digits

/-- Hexadecimal text of at least `width` digits. -/
def hex (width n : Nat) : String := String.ofList (padLeft width (hexDigits n))

/-- Decimal text of at least `width` digits. -/
def decimal (width n : Nat) : String := String.ofList (padLeft width (Nat.toDigits 10 n))

/-- Decimal text that always carries a sign. -/
def signed (i : Int) : String := if 0 ≤ i then "+" ++ toString i else toString i

/-- The number that decimal digits denote; nothing is read from an empty list. -/
def readDecimal : List Char → Option Nat
  | [] => none
  | cs => cs.foldl (fun acc c => acc.bind fun n =>
      if '0' ≤ c ∧ c ≤ '9' then some (10 * n + (c.toNat - '0'.toNat)) else none) (some 0)

/-- Two hexadecimal digits per byte. -/
def hexBytes (b : List UInt8) : String := String.join (b.map fun x => hex 2 x.toNat)

end PermissionAudit.Digits
