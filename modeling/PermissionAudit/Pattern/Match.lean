import PermissionAudit.Pattern.Basic

/-!
Matching. A text is read once from the front, and every match under way is
followed at the same time: the state of a pattern says where in the pattern the
matches are that have begun. No choice is ever undone.
-/

namespace PermissionAudit.Pattern

/-- Rounds of a repetition that are still to come: how many at least, and at most. -/
structure Rounds where
  least : Nat
  most : Option Nat
deriving DecidableEq

namespace Rounds

/-- More rounds may come. -/
def exceeds (a b : Rounds) : Bool :=
  match a.most, b.most with
  | some m, some n => n < m || (n = m && b.least < a.least)
  | _, _ => b.least < a.least

/-- What is to come after the next round. If a round can be nothing here, so can all that have
to come. -/
def next? (canBeNothing : Bool) (r : Rounds) : Option Rounds :=
  if r.most = some 0 then none
  else some ⟨if canBeNothing then 0 else r.least - 1, r.most.map (· - 1)⟩

/-- Rounds that begin here together with those under way. Both lists begin with the rounds after
which the most may come. -/
def join {σ : Type} (begun : List Rounds) (going : List (Rounds × σ)) :
    List (Rounds × Bool × Option σ) :=
  let all := List.merge (begun.map fun r => (r, none)) (going.map fun g => (g.1, some g.2))
    fun a b => !b.1.exceeds a.1
  all.foldr (fun r joined => match r, joined with
    | (r, some s), joined => (r, false, some s) :: joined
    | (r, none), (r', starts, s) :: joined =>
      if r = r' then (r', true, s) :: joined else (r, true, none) :: (r', starts, s) :: joined
    | (r, none), [] => [(r, true, none)]) []

end Rounds

/-- Where the matches are that have taken at least one character: what remains of texts,
whether a character of a set was just taken, and the state of each round under way. -/
def State : Pattern → Type
  | empty | anchor _ => Unit
  | words _ => List (List Char)
  | one _ => Bool
  | group _ p => State p
  | seq p q | alt p q => State p × State q
  | repeated p _ _ => List (Rounds × State p)

/-- No match has begun. -/
def idle : (p : Pattern) → State p
  | empty | anchor _ => ()
  | words _ => ([] : List (List Char))
  | one _ => false
  | group _ p => idle p
  | seq p q => (idle p, idle q)
  | alt p q => (idle p, idle q)
  | repeated p _ _ => ([] : List (Rounds × State p))

/-- Some match has begun. -/
def isGoing : (p : Pattern) → State p → Bool
  | empty, _ | anchor _, _ => false
  | words _, (rests : List (List Char)) => !rests.isEmpty
  | one _, (taken : Bool) => taken
  | group _ p, s => isGoing p s
  | seq p q, s => isGoing p s.1 || isGoing q s.2
  | alt p q, s => isGoing p s.1 || isGoing q s.2
  | repeated _ _ _, (rounds : List _) => !rounds.isEmpty

/-- The pattern matches nothing at a position. -/
def matchesNothing (x : Around) : Pattern → Bool
  | empty => true
  | words texts => texts.any (·.isEmpty)
  | one _ => false
  | anchor a => a.holds x
  | group _ p => p.matchesNothing x
  | seq p q => p.matchesNothing x && q.matchesNothing x
  | alt p q => p.matchesNothing x || q.matchesNothing x
  | repeated p least _ => least = 0 || p.matchesNothing x

/-- Some match that has begun ends at a position. -/
def isDone (x : Around) : (p : Pattern) → State p → Bool
  | empty, _ | anchor _, _ => false
  | words _, (rests : List (List Char)) => rests.any (·.isEmpty)
  | one _, (taken : Bool) => taken
  | group _ p, s => isDone x p s
  | seq p q, s => isDone x q s.2 || (isDone x p s.1 && q.matchesNothing x)
  | alt p q, s => isDone x p s.1 || isDone x q s.2
  | repeated p _ _, (rounds : List (Rounds × State p)) =>
    rounds.any fun r => isDone x p r.2 && (r.1.least = 0 || p.matchesNothing x)

/-- What remains of texts after a character. -/
def takeChar (c : Char) (texts : List (List Char)) : List (List Char) :=
  texts.filterMap fun text => match text with
    | first :: rest => if first = c then some rest else none
    | [] => none

/-- The state after a character, if `starts` says whether matches begin at the position before
it. -/
def advance (x : Around) (c : Char) : (p : Pattern) → Bool → State p → State p
  | empty, _, _ | anchor _, _, _ => ()
  | words texts, starts, (rests : List (List Char)) =>
    takeChar c (if starts then texts ++ rests else rests)
  | one set, starts, _ => (starts && set.contains c : Bool)
  | group _ p, starts, s => advance x c p starts s
  | seq p q, starts, s =>
    (advance x c p starts s.1,
      advance x c q (isDone x p s.1 || (starts && p.matchesNothing x)) s.2)
  | alt p q, starts, s => (advance x c p starts s.1, advance x c q starts s.2)
  | repeated p least most, starts, (rounds : List (Rounds × State p)) =>
    let done := (rounds.filter fun r => isDone x p r.2).map (·.1)
    let ready := if starts then ⟨least, most⟩ :: done else done
    let begun := ready.filterMap (Rounds.next? (p.matchesNothing x))
    let rounds : List (Rounds × State p) := (Rounds.join begun rounds).map fun r =>
      (r.1, advance x c p r.2.1 (r.2.2.getD (idle p)))
    (rounds.filter fun r => isGoing p r.2 : List (Rounds × State p))

/-- Whether a match ends at the front of the text or later. Matches may begin everywhere. -/
def searchFrom (p : Pattern) : Option Char → State p → List Char → Bool
  | before, s, [] =>
    let x := ⟨before, none⟩
    p.matchesNothing x || isDone x p s
  | before, s, c :: rest =>
    let x := ⟨before, some c⟩
    p.matchesNothing x || isDone x p s || searchFrom p (some c) (advance x c p true s) rest

/-- Whether the pattern matches some part of a text. -/
def occursIn (p : Pattern) (text : String) : Bool := searchFrom p none (idle p) text.toList

end PermissionAudit.Pattern
