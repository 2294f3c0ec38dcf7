import PermissionAudit.Pattern.CharSet

/-!
Patterns over text. They are built by `sequence`, `alternation` and `repetition`,
which bring them into a simple form: texts that follow each other become one text,
and alternatives are set apart only where they differ.
-/

namespace PermissionAudit

/-- What stands on either side of a position of a text. -/
structure Around where
  before : Option Char
  after : Option Char

/-- Conditions on a position that take up no character. -/
inductive Anchor where
  | textStart
  | textEnd
  | lineStart
  | lineEnd
  | wordBoundary
  | noWordBoundary
  | wordStart
  | wordEnd
  /-- No word character before. -/
  | wordStartHalf
  /-- No word character after. -/
  | wordEndHalf
deriving DecidableEq

/-- Whether the condition holds at a position. -/
def Anchor.holds (a : Anchor) (x : Around) : Bool :=
  let wordBefore := x.before.any WordChar.contains
  let wordAfter := x.after.any WordChar.contains
  match a with
  | textStart => x.before.isNone
  | textEnd => x.after.isNone
  | lineStart => x.before.all (· = '\n')
  | lineEnd => x.after.all (· = '\n')
  | wordBoundary => wordBefore != wordAfter
  | noWordBoundary => wordBefore == wordAfter
  | wordStart => !wordBefore && wordAfter
  | wordEnd => wordBefore && !wordAfter
  | wordStartHalf => !wordBefore
  | wordEndHalf => !wordAfter

inductive Pattern where
  | empty
  /-- One of several texts. -/
  | words (texts : List (List Char))
  /-- One character of a set. -/
  | one (set : CharSet)
  | anchor (a : Anchor)
  /-- A group, told from others by its number. -/
  | group (number : Nat) (p : Pattern)
  | seq (p q : Pattern)
  | alt (p q : Pattern)
  /-- At least `least` times, and at most `most` times if that is given. -/
  | repeated (p : Pattern) (least : Nat) (most : Option Nat)
deriving DecidableEq

namespace Pattern

def literal (text : List Char) : Pattern := words [text]

def ofSet (set : CharSet) : Pattern :=
  match set.single? with
  | some c => literal [c]
  | none => one set

/-- The fewest bytes that a match takes, if there are matches at all. -/
def leastBytes : Pattern → Option Nat
  | empty | anchor _ => some 0
  | words texts => (texts.map fun text => (String.ofList text).utf8ByteSize).min?
  | one set => set.ranges.head?.map fun r => (Char.ofNat r.1).utf8Size
  | group _ p => p.leastBytes
  | seq p q => do return (← p.leastBytes) + (← q.leastBytes)
  | alt p q => do return min (← p.leastBytes) (← q.leastBytes)
  | repeated p least _ => do return (← p.leastBytes) * least

/-- Matches take up nothing. -/
def takesNothing : Pattern → Bool
  | empty | anchor _ => true
  | words texts => texts.all (·.isEmpty)
  | one _ => false
  | group _ p => p.takesNothing
  | seq p q | alt p q => p.takesNothing && q.takesNothing
  | repeated p _ most => p.takesNothing && most.isSome

/-- Every match starts at the start of the text. -/
def startsAtStart : Pattern → Bool
  | anchor .textStart => true
  | group _ p => p.startsAtStart
  | seq p q => p.startsAtStart || (p.takesNothing && q.startsAtStart)
  | alt p q => p.startsAtStart && q.startsAtStart
  | repeated p least _ => 0 < least && p.startsAtStart
  | _ => false

/-- Every match ends at the end of the text. -/
def endsAtEnd : Pattern → Bool
  | anchor .textEnd => true
  | group _ p => p.endsAtEnd
  | seq p q => q.endsAtEnd || (q.takesNothing && p.endsAtEnd)
  | alt p q => p.endsAtEnd && q.endsAtEnd
  | repeated p least _ => 0 < least && p.endsAtEnd
  | _ => false

/-- What follows one after another. -/
def parts : Pattern → List Pattern
  | empty => []
  | seq p q => p.parts ++ q.parts
  | p => [p]

def ofParts : List Pattern → Pattern
  | [] => empty
  | [p] => p
  | p :: rest => seq p (ofParts rest)

/-- Puts a part in front of others; a text in front of a text makes one. -/
def prepend (p : Pattern) (rest : List Pattern) : List Pattern :=
  match p, rest with
  | words [text], words [next] :: rest => literal (text ++ next) :: rest
  | p, rest => p :: rest

/-- Patterns one after another. -/
def sequence (ps : List Pattern) : Pattern := ofParts ((ps.flatMap parts).foldr prepend [])

/-- What there is to choose from. -/
def branches : Pattern → List Pattern
  | alt p q => p.branches ++ q.branches
  | words texts => texts.map literal
  | p => [p]

def text? : Pattern → Option (List Char)
  | words [text] => some text
  | _ => none

def char? : Pattern → Option Char
  | words [[c]] => some c
  | _ => none

def set? : Pattern → Option CharSet
  | one set => some set
  | _ => none

/-- The parts of a pattern that has several. -/
def severalParts? : Pattern → Option (List Pattern)
  | seq p q => some (seq p q).parts
  | _ => none

/-- What two lists begin with alike. -/
def commonFront : List Pattern → List Pattern → List Pattern
  | p :: ps, q :: qs => if p = q then p :: commonFront ps qs else []
  | _, _ => []

/-- The parts that all branches begin with, and the parts of each branch after them. Every
branch has to have several parts. -/
def shared? (branches : List Pattern) : Option (List Pattern × List (List Pattern)) := do
  match ← branches.mapM severalParts? with
  | [] => none
  | first :: rest =>
    let front := rest.foldl commonFront first
    if front.isEmpty then none
    else some (front, (first :: rest).map (·.drop front.length))

/-- Branches that are not of one kind. -/
def choice : List Pattern → Pattern
  | [] => one .none
  | [p] => p
  | p :: rest => alt p (choice rest)

/-- One of several branches. Characters and sets make a set, texts stay together, and what all
branches begin with is put in front; that leaves fewer parts, so that their number is fuel
enough. -/
def alternationFrom : Nat → List Pattern → Pattern
  | 0, ps => choice ps
  | fuel + 1, ps =>
    match ps.flatMap branches with
    | [p] => p
    | ps =>
      match ps.mapM char?, ps.mapM set?, shared? ps, ps.mapM text? with
      | some chars, _, _, _ => ofSet (.ofChars chars)
      | none, some sets, _, _ => ofSet (.unions sets)
      | none, none, some (front, rests), _ =>
        sequence (front ++ [alternationFrom fuel (rests.map sequence)])
      | none, none, none, some texts => words texts
      | none, none, none, none => choice ps

def alternation (ps : List Pattern) : Pattern :=
  alternationFrom (((ps.flatMap branches).flatMap parts).length + 1) ps

/-- A pattern again and again. What takes up nothing is not repeated. -/
def repetition (p : Pattern) (least : Nat) (most : Option Nat) : Pattern :=
  let (least, most) :=
    if p.takesNothing then (min least 1, some (min (most.getD 1) 1)) else (least, most)
  match least, most with
  | 0, some 0 => empty
  | 1, some 1 => p
  | least, most => repeated p least most

end Pattern

end PermissionAudit
