import Mathlib.Algebra.Group.Nat.Even
import PermissionAudit.Proofs.Program.FlowGraph

/-!
Quoted strings of the DOT language. Inside a string a backslash takes a quote or a
backslash behind it along, and the string ends at the first quote that is not taken.
A label has a backslash before each of its quotes, but none before its backslashes;
so it ends at its own closing quote exactly if the text has an even number of
backslashes before every quote and at its end.
-/

namespace PermissionAudit.Dot

/-! ## Reading -/

/-- A string whose first characters are given, and what follows it. -/
def prepend (front : List Char) (read : List Char × List Char) : List Char × List Char :=
  (front ++ read.1, read.2)

/-- Reads a string from behind its opening quote: the characters before the closing quote, and
those behind it. -/
def readString : List Char → Option (List Char × List Char)
  | [] => none
  | '"' :: rest => some ([], rest)
  | '\\' :: '"' :: rest => (readString rest).map (prepend ['\\', '"'])
  | '\\' :: '\\' :: rest => (readString rest).map (prepend ['\\', '\\'])
  | c :: rest => (readString rest).map (prepend [c])

theorem readString_escape {c : Char} (h : c = '"' ∨ c = '\\') (rest : List Char) :
    readString ('\\' :: c :: rest) = (readString rest).map (prepend ['\\', c]) := by
  rcases h with rfl | rfl <;> rfl

theorem readString_other {c : Char} (quote : c ≠ '"') (backslash : c ≠ '\\') (rest : List Char) :
    readString (c :: rest) = (readString rest).map (prepend [c]) := by
  rw [readString] <;> simp [quote, backslash]

/-- A backslash before any other character is a character of its own. -/
theorem readString_backslash {c : Char} (quote : c ≠ '"') (backslash : c ≠ '\\')
    (rest : List Char) :
    readString ('\\' :: c :: rest) = (readString rest).map (prepend ['\\', c]) := by
  rw [readString, readString_other quote backslash, Option.map_map]
  · rfl
  all_goals simp [quote, backslash]

theorem map_prepend_eq_some_iff {front text after : List Char}
    {read : Option (List Char × List Char)} :
    read.map (prepend front) = some (front ++ text, after) ↔ read = some (text, after) := by
  cases read with
  | none => simp
  | some p => simp [prepend, Prod.ext_iff]

/-- What is read is a beginning, with the closing quote behind it. -/
theorem eq_append_of_readString {cs text after : List Char}
    (h : readString cs = some (text, after)) : cs = text ++ '"' :: after := by
  fun_induction readString cs generalizing text
  case case1 => cases h
  case case2 rest =>
    obtain ⟨rfl, rfl⟩ := Prod.mk.inj (Option.some.inj h)
    rfl
  all_goals
    rename_i ih
    obtain ⟨⟨text', after'⟩, hread, heq⟩ := Option.map_eq_some_iff.mp h
    obtain ⟨rfl, rfl⟩ := Prod.mk.inj heq
    rw [ih hread]
    rfl

/-! ## Backslashes in a row -/

/-- The number of backslashes at the end. -/
def trailing (cs : List Char) : Nat := (cs.reverse.takeWhile (· = '\\')).length

/-- Before every quote and at the end there is an even number of backslashes. -/
def EvenBackslashes (cs : List Char) : Prop :=
  ∀ front after, cs = front ++ after → (after = [] ∨ after.head? = some '"') →
    Even (trailing front)

/-- Runs over a text and checks the same; `odd` tells whether the backslashes before are odd in
number. -/
def checkBackslashes : Bool → List Char → Bool
  | odd, [] => !odd
  | odd, c :: rest =>
    if c = '"' then !odd && checkBackslashes false rest
    else if c = '\\' then checkBackslashes (!odd) rest
    else checkBackslashes false rest

theorem trailing_append_backslash (cs : List Char) : trailing (cs ++ ['\\']) = trailing cs + 1 := by
  simp [trailing]

theorem trailing_append_other {c : Char} (h : c ≠ '\\') (cs : List Char) :
    trailing (cs ++ [c]) = 0 := by
  simp [trailing, h]

/-- Splitting a text in two splits its tail in two, or nothing off. -/
theorem forall_append_cons_iff {c : Char} {rest : List Char} {P : List Char → List Char → Prop} :
    (∀ front after, c :: rest = front ++ after → P front after) ↔
      P [] (c :: rest) ∧ ∀ front after, rest = front ++ after → P (c :: front) after := by
  constructor
  · intro h
    refine ⟨h [] _ rfl, ?_⟩
    intro front after heq
    exact h (c :: front) after (congrArg (c :: ·) heq)
  · intro h front after heq
    cases front with
    | nil =>
      obtain rfl : c :: rest = after := heq
      exact h.1
    | cons d front =>
      obtain ⟨rfl, tail⟩ := List.cons.inj heq
      exact h.2 front after tail

theorem checkBackslashes_iff {odd : Bool} {before cs : List Char}
    (h : odd = true ↔ ¬ Even (trailing before)) :
    checkBackslashes odd cs = true ↔
      ∀ front after, cs = front ++ after → (after = [] ∨ after.head? = some '"') →
        Even (trailing (before ++ front)) := by
  induction cs generalizing odd before with
  | nil =>
    simp only [checkBackslashes, Bool.not_eq_true', ← Bool.not_eq_true, h, not_not]
    constructor
    · intro even front after heq _
      obtain ⟨rfl, rfl⟩ := List.append_eq_nil_iff.mp heq.symm
      simpa using even
    · intro even
      simpa using even [] [] rfl (.inl rfl)
  | cons c rest ih =>
    obtain ⟨next, hnext⟩ : ∃ next, next = before ++ [c] := ⟨_, rfl⟩
    have later (front : List Char) : before ++ c :: front = next ++ front := by simp [hnext]
    rw [forall_append_cons_iff, checkBackslashes]
    simp only [later, List.append_nil, reduceCtorEq, List.head?_cons, Option.some.injEq, false_or]
    by_cases quote : c = '"'
    · subst quote
      have reset : false = true ↔ ¬ Even (trailing next) := by
        simp [hnext, trailing_append_other]
      rw [if_pos rfl, Bool.and_eq_true, ih reset, Bool.not_eq_true', ← Bool.not_eq_true, h, not_not]
      simp
    · rw [if_neg quote]
      simp only [quote, false_implies, true_and]
      by_cases backslash : c = '\\'
      · subst backslash
        have flip : (!odd) = true ↔ ¬ Even (trailing next) := by
          rw [hnext, trailing_append_backslash, Nat.even_add_one, not_not, Bool.not_eq_true',
            ← Bool.not_eq_true, h, not_not]
        rw [if_pos rfl, ih flip]
      · have reset : false = true ↔ ¬ Even (trailing next) := by
          simp [hnext, trailing_append_other backslash]
        rw [if_neg backslash, ih reset]

theorem evenBackslashes_iff {cs : List Char} :
    EvenBackslashes cs ↔ checkBackslashes false cs = true := by
  have start : false = true ↔ ¬ Even (trailing []) := by decide
  exact (checkBackslashes_iff start).symm

instance : DecidablePred EvenBackslashes := fun _ => decidable_of_iff' _ evenBackslashes_iff

/-! ## Labels -/

/-- A backslash that has not met its character yet. -/
def pending : Bool → List Char
  | false => []
  | true => ['\\']

/-- A label with a closing quote is read up to that quote if all backslashes pair up. -/
theorem readString_pending_iff (odd : Bool) (cs rest : List Char) :
    readString (pending odd ++ (escapeChars cs ++ '"' :: rest)) =
        some (pending odd ++ escapeChars cs, rest) ↔
      checkBackslashes odd cs = true := by
  induction cs generalizing odd with
  | nil =>
    cases odd with
    | false => simp [pending, escapeChars, readString, checkBackslashes]
    | true =>
      -- the closing quote is taken along
      have taken : readString (pending true ++ (escapeChars [] ++ '"' :: rest)) =
          (readString rest).map (prepend ['\\', '"']) := readString_escape (.inl rfl) rest
      rw [taken]
      simp [prepend, pending, escapeChars, checkBackslashes]
  | cons c cs ih =>
    by_cases quote : c = '"'
    · subst quote
      rw [escapeChars_quote, checkBackslashes, if_pos rfl]
      cases odd with
      | false =>
        have taken : readString (pending false ++ ('\\' :: '"' :: escapeChars cs ++ '"' :: rest)) =
            (readString (escapeChars cs ++ '"' :: rest)).map (prepend ['\\', '"']) :=
          readString_escape (.inl rfl) _
        rw [taken]
        exact map_prepend_eq_some_iff.trans (ih false)
      | true =>
        -- the backslash of the quote is taken along, and the quote ends the string
        have ended : readString (pending true ++ ('\\' :: '"' :: escapeChars cs ++ '"' :: rest)) =
            some (['\\', '\\'], escapeChars cs ++ '"' :: rest) := rfl
        rw [ended]
        simp [pending]
    rw [escapeChars_other quote, checkBackslashes, if_neg quote]
    by_cases backslash : c = '\\'
    · subst backslash
      rw [if_pos rfl]
      cases odd with
      | false => exact ih true
      | true =>
        have taken : readString (pending true ++ ('\\' :: escapeChars cs ++ '"' :: rest)) =
            (readString (escapeChars cs ++ '"' :: rest)).map (prepend ['\\', '\\']) :=
          readString_escape (.inr rfl) _
        rw [taken]
        exact map_prepend_eq_some_iff.trans (ih false)
    · rw [if_neg backslash]
      cases odd with
      | false =>
        have single : readString (pending false ++ (c :: escapeChars cs ++ '"' :: rest)) =
            (readString (escapeChars cs ++ '"' :: rest)).map (prepend [c]) :=
          readString_other quote backslash _
        rw [single]
        exact map_prepend_eq_some_iff.trans (ih false)
      | true =>
        have both : readString (pending true ++ (c :: escapeChars cs ++ '"' :: rest)) =
            (readString (escapeChars cs ++ '"' :: rest)).map (prepend ['\\', c]) :=
          readString_backslash quote backslash _
        rw [both]
        exact map_prepend_eq_some_iff.trans (ih false)

/-- **Labels**: a label ends at its own closing quote exactly if the text has an even number of
backslashes before every quote and at its end. -/
theorem readString_escapeChars_iff {cs rest : List Char} :
    readString (escapeChars cs ++ '"' :: rest) = some (escapeChars cs, rest) ↔
      EvenBackslashes cs := by
  rw [evenBackslashes_iff]
  exact readString_pending_iff false cs rest

/-! ## Documents -/

theorem length_lt_of_readString {cs text after : List Char}
    (h : readString cs = some (text, after)) : after.length < cs.length := by
  rw [eq_append_of_readString h, List.length_append, List.length_cons]
  omega

/-- The quoted strings of a document, if all of them end. -/
def strings : List Char → Option (List (List Char))
  | [] => some []
  | c :: rest =>
    if c = '"' then
      match _ : readString rest with
      | none => none
      | some (text, after) => (strings after).map (text :: ·)
    else
      strings rest
termination_by cs => cs.length
decreasing_by
  · have := length_lt_of_readString ‹_›
    rw [List.length_cons]
    omega
  · exact Nat.lt_succ_self _

theorem strings_other {c : Char} (h : c ≠ '"') (rest : List Char) :
    strings (c :: rest) = strings rest := by
  rw [strings, if_neg h]

theorem strings_quote_eq_some_iff {rest : List Char} {ss : List (List Char)} :
    strings ('"' :: rest) = some ss ↔
      ∃ text after more, readString rest = some (text, after) ∧ strings after = some more ∧
        ss = text :: more := by
  rw [strings, if_pos rfl]
  cases h : readString rest with
  | none => simp
  | some read =>
    obtain ⟨text, after⟩ := read
    simp only [Option.map_eq_some_iff, Option.some.injEq, Prod.mk.injEq]
    constructor
    · intro found
      obtain ⟨more, hmore, rfl⟩ := found
      exact ⟨text, after, more, ⟨rfl, rfl⟩, hmore, rfl⟩
    · intro found
      obtain ⟨_, _, more, ⟨rfl, rfl⟩, hmore, rfl⟩ := found
      exact ⟨more, hmore, rfl⟩

/-- The characters show the texts: if each of the texts can stand in a string, then whatever
follows, the quoted strings are first the labels of the texts; and not otherwise. -/
def Shows (cs : List Char) (texts : List (List Char)) : Prop :=
  ∀ rest more, strings (cs ++ rest) = some (texts.map escapeChars ++ more) ↔
    (∀ t ∈ texts, EvenBackslashes t) ∧ strings rest = some more

namespace Shows

/-- Without quotes there is nothing to show. -/
theorem plain {cs : List Char} (h : '"' ∉ cs) : Shows cs [] := by
  intro rest more
  simp only [List.map_nil, List.nil_append, List.not_mem_nil, false_implies, implies_true, true_and]
  induction cs with
  | nil => rfl
  | cons c cs ih =>
    have first : c ≠ '"' := by
      intro quote
      exact h (quote ▸ List.mem_cons_self)
    rw [List.cons_append, strings_other first]
    exact ih fun later => h (List.mem_cons_of_mem _ later)

/-- A label in quotes. -/
theorem label (t : List Char) : Shows ('"' :: (escapeChars t ++ ['"'])) [t] := by
  intro rest more
  have input : '"' :: (escapeChars t ++ ['"']) ++ rest = '"' :: (escapeChars t ++ '"' :: rest) := by
    simp
  rw [input, strings_quote_eq_some_iff, List.forall_mem_singleton]
  constructor
  · intro shown
    obtain ⟨text, after, later, hread, hlater, heq⟩ := shown
    obtain ⟨rfl, rfl⟩ := List.cons.inj heq
    have cut := List.append_cancel_left (eq_append_of_readString hread)
    obtain ⟨-, rfl⟩ := List.cons.inj cut
    exact ⟨readString_escapeChars_iff.mp hread, hlater⟩
  · intro shown
    obtain ⟨even, hlater⟩ := shown
    exact ⟨_, rest, more, readString_escapeChars_iff.mpr even, hlater, rfl⟩

theorem append {cs ds : List Char} {texts more : List (List Char)} (hc : Shows cs texts)
    (hd : Shows ds more) : Shows (cs ++ ds) (texts ++ more) := by
  intro rest later
  rw [List.append_assoc, List.map_append, List.append_assoc, hc, hd, List.forall_mem_append,
    and_assoc]

theorem flatMap {α : Type} {xs : List α} {f : α → List Char} {texts : α → List (List Char)}
    (h : ∀ x ∈ xs, Shows (f x) (texts x)) : Shows (xs.flatMap f) (xs.flatMap texts) := by
  induction xs with
  | nil => exact plain List.not_mem_nil
  | cons x xs ih =>
    rw [List.flatMap_cons, List.flatMap_cons]
    refine (h x List.mem_cons_self).append (ih ?_)
    intro y hy
    exact h y (List.mem_cons_of_mem _ hy)

/-- The quoted strings of a whole document. -/
theorem strings_iff {cs : List Char} {texts : List (List Char)} (h : Shows cs texts) :
    strings cs = some (texts.map escapeChars) ↔ ∀ t ∈ texts, EvenBackslashes t := by
  have whole := h [] []
  rw [List.append_nil, List.append_nil] at whole
  rw [whole, strings]
  simp

end Shows

end PermissionAudit.Dot
