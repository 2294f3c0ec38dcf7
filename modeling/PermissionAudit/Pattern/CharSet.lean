import PermissionAudit.Text.CaseFold
import PermissionAudit.Text.DecimalDigit
import PermissionAudit.Text.WordChar

/-!
Sets of characters that patterns speak of. A set is a list of ranges, so that
sets can be compared and counted.
-/

namespace PermissionAudit

structure CharSet where
  /-- Where membership changes, by character numbers in ascending order. -/
  bounds : List Nat
deriving DecidableEq

namespace CharSet

def contains (s : CharSet) (c : Char) : Bool := Toggle.contains s.bounds c.toNat

def none : CharSet := ⟨[]⟩

/-- Every character. The numbers of surrogates are no characters. -/
def all : CharSet := ⟨[0, 0xD800, 0xE000, 0x110000]⟩

/-- All characters from `low` to `high`. -/
def range (low high : Char) : CharSet := ⟨[low.toNat, high.toNat + 1]⟩

def single (c : Char) : CharSet := range c c

def digit : CharSet := ⟨DecimalDigit.bounds⟩

def word : CharSet := ⟨WordChar.bounds⟩

/-- The white space of all scripts. -/
def blank : CharSet := ⟨[
  0x9, 0xE, 0x20, 0x21, 0x85, 0x86, 0xA0, 0xA1, 0x1680, 0x1681, 0x2000, 0x200B, 0x2028, 0x202A,
  0x202F, 0x2030, 0x205F, 0x2060, 0x3000, 0x3001]⟩

def union (s t : CharSet) : CharSet := ⟨Toggle.combine (fun a b => a || b) s.bounds t.bounds⟩

def inter (s t : CharSet) : CharSet := ⟨Toggle.combine (fun a b => a && b) s.bounds t.bounds⟩

def diff (s t : CharSet) : CharSet := ⟨Toggle.combine (fun a b => a && !b) s.bounds t.bounds⟩

def symmDiff (s t : CharSet) : CharSet := ⟨Toggle.combine (fun a b => a != b) s.bounds t.bounds⟩

def compl (s : CharSet) : CharSet := diff all s

def unions (sets : List CharSet) : CharSet := sets.foldl union none

def ofChars (cs : List Char) : CharSet := unions (cs.map single)

/-- Every case of a character. -/
def casesOf (c : Char) : CharSet := ofChars (CaseFold.variants c)

/-- The characters that are in the set in one of their cases. -/
def anyCase (s : CharSet) : CharSet :=
  let cased := CaseFold.cased.filter fun n =>
    (CaseFold.variants (Char.ofNat n)).any s.contains && !s.contains (Char.ofNat n)
  union s ⟨Toggle.ofNumbers cased⟩

/-- The character of a set that has only one. -/
def single? (s : CharSet) : Option Char :=
  match s.bounds with
  | [first, next] => if next = first + 1 then some (Char.ofNat first) else Option.none
  | _ => Option.none

/-- The ranges of a set, each with the numbers of its first and last character. -/
def ranges (s : CharSet) : List (Nat × Nat) := Toggle.ranges s.bounds

/-- The union of ranges. -/
def ofRanges (ranges : List (Char × Char)) : CharSet :=
  unions (ranges.map fun r => range r.1 r.2)

/-- Named sets of ASCII characters. -/
def named? (name : String) : Option CharSet :=
  let upper := ('A', 'Z')
  let lower := ('a', 'z')
  let digits := ('0', '9')
  match name with
  | "alnum" => some (ofRanges [digits, upper, lower])
  | "alpha" => some (ofRanges [upper, lower])
  | "ascii" => some (ofRanges [('\x00', '\x7F')])
  | "blank" => some (ofRanges [('\t', '\t'), (' ', ' ')])
  | "cntrl" => some (ofRanges [('\x00', '\x1F'), ('\x7F', '\x7F')])
  | "digit" => some (ofRanges [digits])
  | "graph" => some (ofRanges [('!', '~')])
  | "lower" => some (ofRanges [lower])
  | "print" => some (ofRanges [(' ', '~')])
  | "punct" => some (ofRanges [('!', '/'), (':', '@'), ('[', '\x60'), ('\x7B', '~')])
  | "space" => some (ofRanges [('\t', '\r'), (' ', ' ')])
  | "upper" => some (ofRanges [upper])
  | "word" => some (ofRanges [digits, upper, ('_', '_'), lower])
  | "xdigit" => some (ofRanges [digits, ('A', 'F'), ('a', 'f')])
  | _ => Option.none

end CharSet

end PermissionAudit
