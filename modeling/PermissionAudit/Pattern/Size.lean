import PermissionAudit.Bytes.Basic
import PermissionAudit.Pattern.Basic
import PermissionAudit.Sequence.Distinct
import PermissionAudit.Text.Utf8
import PermissionAudit.Text.Utf8Range

/-!
The size of the automata that recognise a pattern in UTF-8. One automaton reads
forward and keeps track of groups, another one reads backward from the end of a
match. Repetitions are written out, so that counts multiply. Patterns with too
large an automaton are refused.
-/

namespace PermissionAudit.Pattern

/-- The direction in which an automaton reads. -/
inductive Direction where
  | forward
  | backward
deriving DecidableEq

/-- The bytes that a state takes. -/
def stateSize : Nat := 32

/-- The bytes that a state takes for each of several byte ranges. -/
def rangeSize : Nat := 8

/-- The bytes that a state takes for each state that it forks to. -/
def forkSize : Nat := 4

/-- The sum of a size over a list. -/
def total {α : Type} (size : α → Nat) (xs : List α) : Nat :=
  xs.foldl (fun n x => n + size x) 0

/-- A state that tells several byte ranges apart. -/
def tellApart (ranges : Nat) : Nat := stateSize + rangeSize * ranges

/-- Codings by their first byte range, with what follows it. -/
def byFirst (codings : List Utf8Range.Coding) :
    List (Utf8Range.ByteRange × List Utf8Range.Coding) :=
  codings.foldr (fun coding groups => match coding, groups with
    | [], groups => groups
    | range :: rest, (next, rests) :: groups =>
      if range = next then (next, rest :: rests) :: groups
      else (range, [rest]) :: (next, rests) :: groups
    | range :: rest, [] => [(range, [rest])]) []

/-- The states before the end of a character, each given by what may follow. No character has
more than four bytes. -/
def openStates : Nat → List Utf8Range.Coding → List (List Utf8Range.Coding)
  | 0, _ => []
  | depth + 1, codings =>
    if codings.all (·.isEmpty) then []
    else codings :: (byFirst codings).flatMap fun later => openStates depth later.2

/-- What has been read of a coding, byte after byte. -/
def fronts (coding : Utf8Range.Coding) : List Utf8Range.Coding :=
  (List.range coding.length).map fun i => coding.take (i + 1)

/-- The size for one character of a set. Sets of ASCII characters take one state. Forward,
states with equal continuations are one; backward, states that have read the same from the
lead byte on. -/
def setSize (d : Direction) (set : CharSet) : Nat :=
  let codings := set.ranges.flatMap fun r => Utf8Range.codings r.1 r.2
  if codings.all (·.length = 1) then
    stateSize + tellApart codings.length
  else
    match d with
    | .forward =>
      stateSize + total (fun state => tellApart (byFirst state).length)
        (distinct (openStates 4 codings))
    | .backward =>
      2 * stateSize + forkSize * codings.length +
        stateSize * (distinct (codings.flatMap fronts)).length

/-- Texts between those that are at their end. Ends at the front count once. -/
def betweenEnds (texts : List Bytes) : List (List Bytes) :=
  let split := texts.foldr (fun text groups => match text, groups with
    | [], groups => [] :: groups
    | text, here :: groups => (text :: here) :: groups
    | text, [] => [[text]]) [[]]
  let ends := (texts.takeWhile (·.isEmpty)).length
  split.drop (ends - 1)

/-- The size of a state of a tree of texts and of the states behind it. Every step takes a byte
off the texts, so that their length is fuel enough. -/
def treeSize : Nat → List Bytes → Nat
  | 0, _ => 0
  | fuel + 1, texts =>
    if texts.all (·.isEmpty) then 0
    else
      let groups := betweenEnds texts
      let groupSize (here : List Bytes) : Nat :=
        let firsts := distinct (here.filterMap (·.head?))
        let behind := total (fun first =>
          treeSize fuel ((here.filter (·.head? = some first)).map (·.drop 1))) firsts
        match firsts.length with
        | 0 => 0
        | 1 => forkSize + stateSize + behind
        | count => forkSize + tellApart count + behind
      stateSize + forkSize * (groups.length - 1) + total groupSize groups

/-- The size for one of several texts. -/
def textsSize (d : Direction) (texts : List (List Char)) : Nat :=
  let coded := texts.map fun text => Utf8.encode (String.ofList text)
  match coded with
  | [text] => stateSize * text.length
  | _ =>
    let read := match d with
      | .forward => coded
      | .backward => coded.map (·.reverse)
    stateSize + treeSize (total (·.length) read + 1) read

def isAlt : Pattern → Bool
  | alt _ _ => true
  | _ => false

/-- The size of the states for a pattern. A group is marked at both ends when reading forward.
Alternatives share a fork and an end. -/
def size (d : Direction) : Pattern → Nat
  | empty | anchor _ => stateSize
  | words texts => textsSize d texts
  | one set => setSize d set
  | group _ p => match d with
    | .forward => 2 * stateSize + p.size d
    | .backward => p.size d
  | seq p q => p.size d + q.size d
  | alt p q =>
    p.size d + forkSize + q.size d + if q.isAlt then 0 else forkSize + 2 * stateSize
  | repeated p least most =>
    let once := p.size d
    let fork := stateSize + 2 * forkSize
    match least, most with
    | 0, some 1 => fork + once + stateSize
    | 0, none =>
      if p.leastBytes.any (0 < ·) then fork + once else 2 * fork + once + stateSize
    | least, none => least * once + fork
    | least, some most =>
      if least = most then least * once
      else
        (if least = 0 then stateSize else least * once) + stateSize +
          (most - least) * (fork + once)

/-- The size of an automaton. Unless matches start at one end only, it skips what is in front of
them; it ends in a state of its own. -/
def automatonSize (d : Direction) (p : Pattern) : Nat :=
  let skip := 2 * stateSize + 2 * forkSize + tellApart 1
  match d with
  | .forward => (if p.startsAtStart then stateSize else skip) + 3 * stateSize + p.size d
  | .backward => (if p.endsAtEnd then stateSize else skip) + stateSize + p.size d

/-- Automata are at most this large. -/
def sizeLimit : Nat := 0xA00000

def isTooLarge (p : Pattern) : Bool :=
  sizeLimit < p.automatonSize .forward || sizeLimit < p.automatonSize .backward

end PermissionAudit.Pattern
