import PermissionAudit.Pattern.Size
import PermissionAudit.Text.Fields

/-!
Reading patterns. The language has literals, `.`, `^`, `$`, sets in brackets,
groups, alternatives, repetitions, escapes, and settings such as `(?i)` that hold
to the end of the group they stand in. Patterns that are nested too deep or have
too large an automaton are refused.
-/

namespace PermissionAudit.Pattern

/-- Why a text is no pattern. -/
inductive Fault where
  | escape
  | set
  | group
  | setting
  | repetition
  | tooDeep
  | tooLarge
deriving DecidableEq

/-- What was read from the front of a text, and the rest of it. -/
abbrev Front (α : Type) := α × List Char

structure Settings where
  ignoreCase : Bool := false
  /-- `^` and `$` match at line ends. -/
  multiLine : Bool := false
  /-- `.` matches line feeds. -/
  dotAll : Bool := false
deriving DecidableEq

/-- A set under settings. -/
def Settings.set (s : Settings) (set : CharSet) : CharSet :=
  if s.ignoreCase then set.anyCase else set

/-- A character under settings. -/
def Settings.char (s : Settings) (c : Char) : Pattern :=
  if s.ignoreCase then ofSet (.casesOf c) else literal [c]

/-- How deep something is nested that stands with others, if each of them counts and several
make one level more. -/
def depthOf (count deepest : Nat) : Nat := if 2 ≤ count then deepest + 1 else deepest

/-- What an escape stands for. -/
inductive Escaped where
  | char (c : Char)
  | set (s : CharSet)
  | anchor (a : Anchor)

def hexDigit? (c : Char) : Option Nat :=
  if '0' ≤ c ∧ c ≤ '9' then some (c.toNat - '0'.toNat)
  else if 'a' ≤ c ∧ c ≤ 'f' then some (c.toNat - 'a'.toNat + 10)
  else if 'A' ≤ c ∧ c ≤ 'F' then some (c.toNat - 'A'.toNat + 10)
  else none

/-- The character with a number in hexadecimal digits. -/
def hexChar? (digits : List Char) : Option Char := do
  let values ← digits.mapM hexDigit?
  let n := values.foldl (fun n d => 16 * n + d) 0
  if n.isValidChar ∧ !digits.isEmpty then some (Char.ofNat n) else none

/-- A character number after its letter: in braces, or with a fixed count of digits. -/
def readHex (count : Nat) (cs : List Char) : Except Fault (Front Escaped) :=
  match cs with
  | '\x7B' :: rest =>
    let digits := rest.takeWhile (· ≠ '\x7D')
    match hexChar? digits, rest.drop digits.length with
    | some c, _ :: rest => .ok (.char c, rest)
    | _, _ => .error .escape
  | _ =>
    if cs.length < count then .error .escape
    else
      match hexChar? (cs.take count) with
      | some c => .ok (.char c, cs.drop count)
      | none => .error .escape

/-- Characters of the names of word boundaries. -/
def isBoundaryNameChar (c : Char) : Bool := c.isAlpha || c = '-'

def boundary? (name : String) : Option Anchor :=
  match name with
  | "start" => some .wordStart
  | "end" => some .wordEnd
  | "start-half" => some .wordStartHalf
  | "end-half" => some .wordEndHalf
  | _ => none

/-- A word boundary after its letter. A name in braces may follow; braces with anything else
are left to be read as a repetition. -/
def readBoundary (cs : List Char) : Except Fault (Front Escaped) :=
  match cs with
  | ['\x7B'] => .error .escape
  | '\x7B' :: c :: rest =>
    if isBoundaryNameChar c then
      let name := (c :: rest).takeWhile isBoundaryNameChar
      match boundary? (String.ofList name), (c :: rest).drop name.length with
      | some a, '\x7D' :: rest => .ok (.anchor a, rest)
      | _, _ => .error .escape
    else
      .ok (.anchor .wordBoundary, cs)
  | _ => .ok (.anchor .wordBoundary, cs)

/-- An escape, after the backslash. Other letters, digits and characters beyond ASCII have no
meaning. -/
def readEscape : List Char → Except Fault (Front Escaped)
  | [] => .error .escape
  | c :: rest =>
    match c with
    | 'x' => readHex 2 rest
    | 'u' => readHex 4 rest
    | 'U' => readHex 8 rest
    | 'd' => .ok (.set .digit, rest)
    | 'D' => .ok (.set (.compl .digit), rest)
    | 's' => .ok (.set .blank, rest)
    | 'S' => .ok (.set (.compl .blank), rest)
    | 'w' => .ok (.set .word, rest)
    | 'W' => .ok (.set (.compl .word), rest)
    | 'a' => .ok (.char '\x07', rest)
    | 'f' => .ok (.char '\x0C', rest)
    | 't' => .ok (.char '\t', rest)
    | 'n' => .ok (.char '\n', rest)
    | 'r' => .ok (.char '\r', rest)
    | 'v' => .ok (.char '\x0B', rest)
    | 'A' => .ok (.anchor .textStart, rest)
    | 'z' => .ok (.anchor .textEnd, rest)
    | 'b' => readBoundary rest
    | 'B' => .ok (.anchor .noWordBoundary, rest)
    | '<' => .ok (.anchor .wordStart, rest)
    | '>' => .ok (.anchor .wordEnd, rest)
    | _ =>
      if c.isAlphanum || c.toNat > 0x7F then .error .escape else .ok (.char c, rest)

/-- A member of a set in brackets. -/
inductive SetItem where
  | char (c : Char)
  | set (s : CharSet)

def readSetItem : List Char → Except Fault (Front SetItem)
  | [] => .error .set
  | '\\' :: rest => do
    match ← readEscape rest with
    | (.char c, rest) => .ok (.char c, rest)
    | (.set s, rest) => .ok (.set s, rest)
    | (.anchor _, _) => .error .set
  | c :: rest => .ok (.char c, rest)

/-- A member, or two characters with a dash between them. A dash before the closing bracket or
another dash stands for itself. -/
def readSetRange (cs : List Char) : Except Fault (Front CharSet) := do
  let (item, rest) ← readSetItem cs
  let whole : CharSet := match item with
    | .char c => .single c
    | .set s => s
  match rest with
  | [] => .error .set
  | ['-'] => .error .set
  | '-' :: ']' :: _ | '-' :: '-' :: _ => .ok (whole, rest)
  | '-' :: rest =>
    match item, ← readSetItem rest with
    | .char low, (.char high, rest) =>
      if low ≤ high then .ok (.range low high, rest) else .error .set
    | _, _ => .error .set
  | _ => .ok (whole, rest)

/-- A named set such as `[:alpha:]`, after the opening bracket. -/
def readNamedSet? (cs : List Char) : Option (CharSet × List Char) :=
  match cs with
  | ':' :: rest =>
    let negated := rest.head? = some '^'
    let rest := if negated then rest.drop 1 else rest
    let name := rest.takeWhile (· ≠ ':')
    match CharSet.named? (String.ofList name), rest.drop name.length with
    | some s, ':' :: ']' :: rest => some (if negated then .compl s else s, rest)
    | _, _ => none
  | _ => none

/-- How two sets are combined. -/
inductive SetOp where
  | inter
  | diff
  | symmDiff

def SetOp.apply : SetOp → CharSet → CharSet → CharSet
  | inter => .inter
  | diff => .diff
  | symmDiff => .symmDiff

/-- A set in brackets, and how deep sets are nested in it. -/
structure ReadSet where
  set : CharSet
  depth : Nat

/-- A set in brackets as far as it has been read. -/
structure OpenSet where
  negated : Bool
  /-- The operation that awaits its second set. -/
  pending : Option (ReadSet × SetOp) := none
  /-- Members since the last operation. -/
  members : CharSet := .none
  count : Nat := 0
  /-- How deep the deepest of the members is. -/
  deepest : Nat := 0

namespace OpenSet

/-- Dashes and a closing bracket right after the opening one stand for themselves. -/
def start (cs : List Char) : Front OpenSet :=
  let negated := cs.head? = some '^'
  let cs := if negated then cs.drop 1 else cs
  let dashes := (cs.takeWhile (· = '-')).length
  let cs := cs.drop dashes
  match dashes, cs with
  | 0, ']' :: rest => (⟨negated, none, .single ']', 1, 0⟩, rest)
  | 0, _ => (⟨negated, none, .none, 0, 0⟩, cs)
  | _, _ => (⟨negated, none, .single '-', dashes, 0⟩, cs)

def addMember (o : OpenSet) (s : ReadSet) : OpenSet :=
  { o with
    members := o.members.union s.set
    count := o.count + 1
    deepest := max o.deepest s.depth }

/-- The members with the operation that awaited them. -/
def operand (s : Settings) (o : OpenSet) : ReadSet :=
  let set := s.set o.members
  let depth := depthOf o.count o.deepest
  match o.pending with
  | some (first, op) => ⟨op.apply first.set set, max first.depth depth + 1⟩
  | none => ⟨set, depth⟩

def addOp (s : Settings) (o : OpenSet) (op : SetOp) : OpenSet :=
  { negated := o.negated, pending := some (o.operand s, op) }

def close (s : Settings) (o : OpenSet) : ReadSet :=
  let whole := o.operand s
  ⟨if o.negated then whole.set.compl else whole.set, whole.depth + 1⟩

end OpenSet

/-- The rest of a set in brackets. Every round takes at least one character, so that the
length of the text is fuel enough. -/
def readSet (s : Settings) : Nat → OpenSet → List Char → Except Fault (Front ReadSet)
  | 0, _, _ => .error .set
  | fuel + 1, o, cs =>
    match cs with
    | [] => .error .set
    | ']' :: rest => .ok (o.close s, rest)
    | '&' :: '&' :: rest => readSet s fuel (o.addOp s .inter) rest
    | '-' :: '-' :: rest => readSet s fuel (o.addOp s .diff) rest
    | '~' :: '~' :: rest => readSet s fuel (o.addOp s .symmDiff) rest
    | '[' :: rest =>
      match readNamedSet? rest with
      | some (set, rest) => readSet s fuel (o.addMember ⟨set, 0⟩) rest
      | none => do
        let (inner, rest) := OpenSet.start rest
        let (set, rest) ← readSet s fuel inner rest
        readSet s fuel (o.addMember set) rest
    | _ => do
      let (set, rest) ← readSetRange cs
      readSet s fuel (o.addMember ⟨set, 0⟩) rest

/-- Counts beyond this are refused. -/
def countLimit : Nat := 0x100000000

/-- A number with blanks around it. -/
def readNumber (cs : List Char) : Except Fault (Front Nat) :=
  let cs := cs.dropWhile Fields.isBlank
  let digits := cs.takeWhile Char.isDigit
  let n := digits.foldl (fun n d => 10 * n + (d.toNat - '0'.toNat)) 0
  if digits.isEmpty || countLimit ≤ n then .error .repetition
  else .ok (n, (cs.drop digits.length).dropWhile Fields.isBlank)

/-- Counts of a repetition, after the opening brace. -/
def readCounts (cs : List Char) : Except Fault (Front (Nat × Option Nat)) := do
  let (least, rest) ← readNumber cs
  match rest with
  | '\x7D' :: rest => .ok ((least, some least), rest)
  | ',' :: '\x7D' :: rest => .ok ((least, none), rest)
  | ',' :: rest =>
    match ← readNumber rest with
    | (most, '\x7D' :: rest) =>
      if least ≤ most then .ok ((least, some most), rest) else .error .repetition
    | _ => .error .repetition
  | _ => .error .repetition

/-- Applies a setting letter. Which of several matches is preferred makes no difference
here, and text is always read by characters. -/
def Settings.apply (s : Settings) (letter : Char) (on : Bool) : Except Fault Settings :=
  match letter with
  | 'i' => .ok { s with ignoreCase := on }
  | 'm' => .ok { s with multiLine := on }
  | 's' => .ok { s with dotAll := on }
  | 'U' => .ok s
  | 'u' => if on then .ok s else .error .setting
  | _ => .error .setting

/-- Setting letters: each at most once, those after a dash switched off. -/
def applySettings (s : Settings) (letters : List Char) : Except Fault Settings :=
  let on := letters.takeWhile (· ≠ '-')
  let off := letters.drop (on.length + 1)
  if distinct letters ≠ letters ∨ letters.getLast? = some '-' then
    .error .setting
  else do
    let s ← on.foldlM (fun s c => s.apply c true) s
    off.foldlM (fun s c => s.apply c false) s

/-- What an opening parenthesis begins. -/
inductive Opening where
  /-- A group with its settings, and the name that it may have. -/
  | group (s : Settings) (name : Option (List Char))
  /-- Parentheses that only hold a pattern together. -/
  | parentheses (s : Settings)
  /-- Settings for the rest of the group. -/
  | settings (s : Settings)

def isNameStart (c : Char) : Bool :=
  c = '_' || c.isAlpha || (c.toNat > 0x7F && WordChar.contains c && !DecimalDigit.contains c)

def isNameChar (c : Char) : Bool :=
  ['_', '.', '[', ']'].contains c || c.isAlphanum || (c.toNat > 0x7F && WordChar.contains c)

/-- The name of a group, up to a closing angle bracket. -/
def readGroupName (s : Settings) (cs : List Char) : Except Fault (Front Opening) :=
  let name := cs.takeWhile (· ≠ '>')
  match name, cs.drop name.length with
  | first :: more, _ :: rest =>
    if isNameStart first && more.all isNameChar then .ok (.group s (some name), rest)
    else .error .group
  | _, _ => .error .group

/-- What follows an opening parenthesis. Groups that look around are not offered. -/
def readOpening (s : Settings) (cs : List Char) : Except Fault (Front Opening) :=
  match cs with
  | '?' :: '=' :: _ | '?' :: '!' :: _ | '?' :: '<' :: '=' :: _ | '?' :: '<' :: '!' :: _ =>
    .error .group
  | '?' :: 'P' :: '<' :: rest | '?' :: '<' :: rest => readGroupName s rest
  | '?' :: rest => do
    let letters := rest.takeWhile fun c => c ≠ ':' && c ≠ ')'
    let inner ← applySettings s letters
    match rest.drop letters.length with
    | ':' :: rest => .ok (.parentheses inner, rest)
    | _ :: rest => if letters.isEmpty then .error .setting else .ok (.settings inner, rest)
    | [] => .error .group
  | _ => .ok (.group s none, cs)

/-- A piece of a pattern, and how deep sets, groups, repetitions, sequences and alternatives
are nested in it. -/
structure Piece where
  pattern : Pattern
  depth : Nat := 0
  /-- Settings are pieces too, which cannot be repeated. -/
  repeatable : Bool := true

namespace Piece

def depthOfAll (pieces : List Piece) : Nat :=
  depthOf pieces.length (pieces.foldl (fun depth piece => max depth piece.depth) 0)

/-- Pieces one after another. -/
def sequence (pieces : List Piece) : Piece :=
  ⟨.sequence (pieces.map (·.pattern)), depthOfAll pieces, true⟩

/-- One of several pieces. -/
def alternation (pieces : List Piece) : Piece :=
  match pieces with
  | [piece] => piece
  | pieces => ⟨.alternation (pieces.map (·.pattern)), depthOfAll pieces, true⟩

end Piece

/-- A group as far as it has been read. -/
structure OpenGroup where
  settings : Settings
  /-- Alternatives before the last bar, the last one first. -/
  alternatives : List Piece := []
  /-- Pieces since the last bar, the last one first. -/
  pieces : List Piece := []

namespace OpenGroup

def add (g : OpenGroup) (piece : Piece) : OpenGroup := { g with pieces := piece :: g.pieces }

/-- Settings for the rest of the group. -/
def set (g : OpenGroup) (s : Settings) : OpenGroup :=
  { g with settings := s, pieces := ⟨.empty, 0, false⟩ :: g.pieces }

/-- A bar begins a new alternative. -/
def alternate (g : OpenGroup) : OpenGroup :=
  { g with alternatives := .sequence g.pieces.reverse :: g.alternatives, pieces := [] }

def close (g : OpenGroup) : Piece := .alternation g.alternate.alternatives.reverse

/-- Repeats the last piece. A question mark after a repetition asks for short matches and
changes nothing here. -/
def repeatLast (g : OpenGroup) (least : Nat) (most : Option Nat) (rest : List Char) :
    Except Fault (Front OpenGroup) :=
  match g.pieces with
  | ⟨p, depth, true⟩ :: pieces =>
    let rest := if rest.head? = some '?' then rest.drop 1 else rest
    .ok ({ g with pieces := ⟨.repetition p least most, depth + 1, true⟩ :: pieces }, rest)
  | _ => .error .repetition

end OpenGroup

/-- A character, escape or anchor. -/
def readAtom (s : Settings) (cs : List Char) : Except Fault (Front Pattern) :=
  match cs with
  | [] => .ok (.empty, [])
  | '\\' :: rest => do
    match ← readEscape rest with
    | (.char c, rest) => .ok (s.char c, rest)
    | (.set set, rest) => .ok (ofSet set, rest)
    | (.anchor a, rest) => .ok (.anchor a, rest)
  | '.' :: rest => .ok (ofSet (if s.dotAll then .all else .compl (.single '\n')), rest)
  | '^' :: rest => .ok (.anchor (if s.multiLine then .lineStart else .textStart), rest)
  | '$' :: rest => .ok (.anchor (if s.multiLine then .lineEnd else .textEnd), rest)
  | c :: rest => .ok (s.char c, rest)

/-- The groups that have been opened so far. -/
structure Opened where
  count : Nat := 0
  names : List (List Char) := []

/-- Opens a group, whose name must not have been taken. -/
def Opened.add (o : Opened) (name : Option (List Char)) : Except Fault Opened :=
  if name.any o.names.contains then .error .group
  else .ok ⟨o.count + 1, name.toList ++ o.names⟩

/-- The rest of a group, up to its closing parenthesis or the end of the text. Every round
takes at least one character, so that the length of the text is fuel enough. -/
def readGroup : Nat → OpenGroup → Opened → List Char → Except Fault (Front (Piece × Opened))
  | 0, _, _, _ => .error .group
  | fuel + 1, g, opened, cs =>
    match cs with
    | [] | ')' :: _ => .ok ((g.close, opened), cs)
    | '|' :: rest => readGroup fuel g.alternate opened rest
    | '*' :: rest => do
      let (g, rest) ← g.repeatLast 0 none rest
      readGroup fuel g opened rest
    | '+' :: rest => do
      let (g, rest) ← g.repeatLast 1 none rest
      readGroup fuel g opened rest
    | '?' :: rest => do
      let (g, rest) ← g.repeatLast 0 (some 1) rest
      readGroup fuel g opened rest
    | '\x7B' :: rest => do
      let ((least, most), rest) ← readCounts rest
      let (g, rest) ← g.repeatLast least most rest
      readGroup fuel g opened rest
    | '[' :: rest => do
      let (set, rest) := OpenSet.start rest
      let (set, rest) ← readSet g.settings fuel set rest
      readGroup fuel (g.add ⟨ofSet set.set, set.depth, true⟩) opened rest
    | '(' :: rest => do
      match ← readOpening g.settings rest with
      | (.settings s, rest) => readGroup fuel (g.set s) opened rest
      | (.parentheses s, rest) =>
        match ← readGroup fuel { settings := s } opened rest with
        | ((piece, opened), ')' :: rest) =>
          readGroup fuel (g.add ⟨piece.pattern, piece.depth + 1, true⟩) opened rest
        | _ => .error .group
      | (.group s name, rest) =>
        let inner ← opened.add name
        match ← readGroup fuel { settings := s } inner rest with
        | ((piece, opened), ')' :: rest) =>
          let p := Pattern.group inner.count piece.pattern
          readGroup fuel (g.add ⟨p, piece.depth + 1, true⟩) opened rest
        | _ => .error .group
    | _ => do
      let (p, rest) ← readAtom g.settings cs
      readGroup fuel (g.add { pattern := p }) opened rest

/-- Patterns are nested at most this deep. -/
def depthLimit : Nat := 250

/-- The pattern that a text denotes. -/
def parse (text : String) : Except Fault Pattern := do
  let cs := text.toList
  match ← readGroup (cs.length + 1) { settings := {} } {} cs with
  | ((piece, _), []) =>
    if depthLimit < piece.depth then .error .tooDeep
    else if piece.pattern.isTooLarge then .error .tooLarge
    else .ok piece.pattern
  | _ => .error .group

end PermissionAudit.Pattern
