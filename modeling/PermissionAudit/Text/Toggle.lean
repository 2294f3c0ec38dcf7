/-!
Sets of numbers given by the points where membership changes: a number belongs
to the set when an odd number of the points is at most it. The points are in
ascending order and stand once each, so that equal sets have equal points.
-/

namespace PermissionAudit.Toggle

/-- Membership, starting from `inside`. -/
def containsFrom (inside : Bool) : List Nat → Nat → Bool
  | [], _ => inside
  | bound :: rest, n => if n < bound then inside else containsFrom (!inside) rest n

def contains (bounds : List Nat) (n : Nat) : Bool := containsFrom false bounds n

/-- The points of two sets in ascending order, each with whether it is of the first set. -/
def mergePoints (first second : List Nat) : List (Nat × Bool) :=
  List.merge (first.map (·, true)) (second.map (·, false)) fun a b => a.1 ≤ b.1

/-- Where a combination of two memberships changes. -/
def changes (f : Bool → Bool → Bool) (inFirst inSecond : Bool) : List (Nat × Bool) → List Nat
  | [] => []
  | (point, ofFirst) :: rest =>
    let nowFirst := if ofFirst then !inFirst else inFirst
    let nowSecond := if ofFirst then inSecond else !inSecond
    let later := changes f nowFirst nowSecond rest
    if f nowFirst nowSecond = f inFirst inSecond then later else point :: later

/-- Takes out points that stand twice: membership changes there and back. -/
def cancel : List Nat → List Nat
  | [] => []
  | point :: rest =>
    match cancel rest with
    | [] => [point]
    | next :: rest => if point = next then rest else point :: next :: rest

/-- The set of numbers whose memberships in two sets satisfy `f`, which must not hold of
numbers in neither. -/
def combine (f : Bool → Bool → Bool) (first second : List Nat) : List Nat :=
  cancel (changes f false false (mergePoints first second))

/-- The set of some numbers. -/
def ofNumbers (numbers : List Nat) : List Nat :=
  numbers.foldl (fun bounds n => combine (fun a b => a || b) bounds [n, n + 1]) []

/-- The ranges of a set, each with its first and last number. -/
def ranges : List Nat → List (Nat × Nat)
  | first :: next :: rest => (first, next - 1) :: ranges rest
  | _ => []

end PermissionAudit.Toggle
