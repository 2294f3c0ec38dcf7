/-!
Ranges of characters in UTF-8: each is the union of a few products of byte
ranges, one range for each byte of the coding.
-/

namespace PermissionAudit.Utf8Range

/-- The bytes from one to another. -/
abbrev ByteRange := Nat × Nat

/-- Byte ranges that stand for one character, the lead byte first. -/
abbrev Coding := List ByteRange

/-- Every byte `10xxxxxx`. -/
def continuation : ByteRange := (0x80, 0xBF)

/-- The codings of the numbers from `low` to `high` in digits of six bits, of which `more`
follow the first. The first digit is added to `lead`, the others to `10xxxxxx`. Numbers that
share their first digit with only a part of its numbers come apart from those in between. -/
def digits (lead : Nat) : Nat → Nat → Nat → List Coding
  | 0, low, high => [[(lead + low, lead + high)]]
  | more + 1, low, high =>
    let block := Nat.pow 64 (more + 1)
    let below (digit low high : Nat) : List Coding :=
      (digits 0x80 more low high).map ((lead + digit, lead + digit) :: ·)
    let first := low / block
    let last := high / block
    if first = last then
      below first (low % block) (high % block)
    else
      let head := if low % block = 0 then [] else below first (low % block) (block - 1)
      let tail := if high % block = block - 1 then [] else below last 0 (high % block)
      let first := if low % block = 0 then first else first + 1
      let next := if high % block = block - 1 then last + 1 else last
      let middle :=
        if first < next then
          [(lead + first, lead + next - 1) :: List.replicate (more + 1) continuation]
        else
          []
      head ++ middle ++ tail

/-- Character numbers with codings of one form. -/
structure Form where
  first : Nat
  last : Nat
  lead : Nat
  /-- How many bytes follow the lead byte. -/
  more : Nat

/-- The forms in ascending order. There are no codings of surrogates. -/
def forms : List Form := [
  ⟨0, 0x7F, 0, 0⟩, ⟨0x80, 0x7FF, 0xC0, 1⟩, ⟨0x800, 0xD7FF, 0xE0, 2⟩, ⟨0xE000, 0xFFFF, 0xE0, 2⟩,
  ⟨0x10000, 0x10FFFF, 0xF0, 3⟩]

/-- The codings of the characters from `low` to `high`, in ascending order. -/
def codings (low high : Nat) : List Coding :=
  forms.flatMap fun form =>
    let low := max low form.first
    let high := min high form.last
    if low ≤ high then digits form.lead form.more low high else []

end PermissionAudit.Utf8Range
