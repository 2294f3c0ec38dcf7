import Mathlib.Data.List.Infix
import Mathlib.Data.List.TakeWhile
import PermissionAudit.Text.Fields

/-!
What taking text apart means. Each function is tied to a relation that says how the
whole is put together again: a trimmed text has only blanks around it, fields have
commas between them, and lines have their ends behind them. A text has one trimmed
form, one list of fields and one list of lines, and these are what is computed.
-/

namespace PermissionAudit.Fields

/-! ## Trimming -/

/-- Removing from the front stops at the first element that does not satisfy `p`. -/
theorem dropWhile_eq_iff {α : Type} {p : α → Bool} {xs ys : List α} :
    xs.dropWhile p = ys ↔
      (∀ y ∈ ys.head?, p y = false) ∧ ∃ front, (∀ x ∈ front, p x = true) ∧ xs = front ++ ys := by
  constructor
  · rintro rfl
    refine ⟨?_, xs.takeWhile p, ?_, List.takeWhile_append_dropWhile.symm⟩
    · intro y hy
      have hnot := List.head?_dropWhile_not p xs
      rw [Option.mem_def.mp hy] at hnot
      simpa using hnot
    · intro x hx
      exact List.mem_takeWhile_imp hx
  · rintro ⟨hy, front, hfront, rfl⟩
    rw [List.dropWhile_append_of_pos hfront]
    cases ys with
    | nil => rfl
    | cons y rest => rw [List.dropWhile_cons_of_neg (by simp [hy y rfl])]

/-- Removing from the end stops at the last element that does not satisfy `p`. -/
theorem dropTrailing_eq_iff {α : Type} {p : α → Bool} {xs ys : List α} :
    dropTrailing p xs = ys ↔
      (∀ y ∈ ys.getLast?, p y = false) ∧ ∃ tail, (∀ x ∈ tail, p x = true) ∧ xs = ys ++ tail := by
  rw [dropTrailing, List.reverse_eq_iff, dropWhile_eq_iff, List.head?_reverse]
  refine and_congr_right fun _ => ?_
  constructor
  · rintro ⟨front, hfront, heq⟩
    refine ⟨front.reverse, by simpa using hfront, ?_⟩
    rw [List.reverse_eq_iff] at heq
    simpa using heq
  · rintro ⟨tail, htail, rfl⟩
    exact ⟨tail.reverse, by simpa using htail, by simp⟩

/-- The second text is the first without the blanks around it. -/
structure TrimsTo (cs t : List Char) : Prop where
  head_not_blank : ∀ c ∈ t.head?, isBlank c = false
  last_not_blank : ∀ c ∈ t.getLast?, isBlank c = false
  around : ∃ front tail, (∀ c ∈ front, isBlank c = true) ∧ (∀ c ∈ tail, isBlank c = true) ∧
    cs = front ++ t ++ tail

theorem trim_eq_iff {cs t : List Char} : trim cs = t ↔ TrimsTo cs t := by
  have both : trim cs = dropTrailing isBlank (cs.dropWhile isBlank) := rfl
  rw [both, dropTrailing_eq_iff]
  constructor
  · rintro ⟨hlast, tail, htail, heq⟩
    obtain ⟨hhead, front, hfront, hcs⟩ := dropWhile_eq_iff.mp heq
    refine ⟨?_, hlast, front, tail, hfront, htail, by rw [hcs, List.append_assoc]⟩
    intro c hc
    apply hhead
    rw [List.head?_append, Option.mem_def.mp hc]
    rfl
  · rintro ⟨hhead, hlast, front, tail, hfront, htail, rfl⟩
    refine ⟨hlast, ?_⟩
    cases t with
    | nil =>
      -- all is blank, so nothing is left to remove from the end
      refine ⟨[], by simp, ?_⟩
      rw [List.append_nil, List.append_nil, List.dropWhile_eq_nil_iff]
      intro c hc
      rcases List.mem_append.mp hc with hc | hc
      · exact hfront c hc
      · exact htail c hc
    | cons c rest =>
      refine ⟨tail, htail, ?_⟩
      rw [dropWhile_eq_iff]
      refine ⟨?_, front, hfront, by rw [List.append_assoc]⟩
      intro d hd
      exact hhead d (by simpa using hd)

/-! ## Separators -/

section

variable {sep : Char} {cs : List Char}

theorem takeWhile_ne_append (h : sep ∉ cs) (rest : List Char) :
    (cs ++ sep :: rest).takeWhile (· ≠ sep) = cs := by
  have before : ∀ c ∈ cs, decide (c ≠ sep) = true := by
    intro c hc
    exact decide_eq_true fun heq => h (heq ▸ hc)
  rw [List.takeWhile_append_of_pos before, List.takeWhile_cons_of_neg (by simp), List.append_nil]

theorem dropWhile_ne_append (h : sep ∉ cs) (rest : List Char) :
    (cs ++ sep :: rest).dropWhile (· ≠ sep) = sep :: rest := by
  refine dropWhile_eq_iff.mpr ⟨by simp, cs, ?_, rfl⟩
  intro c hc
  exact decide_eq_true fun heq => h (heq ▸ hc)

/-- A text that does not hold the separator ends at the first one. -/
theorem append_sep_inj {ds s t : List Char} (hc : sep ∉ cs) (hd : sep ∉ ds)
    (h : cs ++ sep :: s = ds ++ sep :: t) : cs = ds ∧ s = t := by
  have front := congrArg (List.takeWhile (· ≠ sep)) h
  rw [takeWhile_ne_append hc, takeWhile_ne_append hd] at front
  subst front
  exact ⟨rfl, (List.cons.inj (List.append_cancel_left h)).2⟩

end

/-! ## Searching -/

theorem occursIn_iff {part cs : List Char} : occursIn part cs = true ↔ part <:+: cs := by
  induction cs with
  | nil =>
    rw [occursIn, List.isEmpty_iff, List.infix_nil]
  | cons c rest ih =>
    rw [occursIn, Bool.or_eq_true, List.isPrefixOf_iff_prefix, ih, List.infix_cons_iff]

/-! ## Splitting -/

theorem split_eq_splitOn (sep : Char) (cs : List Char) : split sep cs = cs.splitOn sep := by
  induction cs with
  | nil => rfl
  | cons c rest ih =>
    rw [split, List.splitOn_cons_eq_if_modifyHead, ih]
    by_cases hc : c = sep
    · simp [hc]
    · have hne := List.splitOn_ne_nil sep rest
      simp only [hc, beq_iff_eq, if_false]
      cases hs : rest.splitOn sep with
      | nil => exact absurd hs hne
      | cons piece pieces => rfl

theorem not_mem_of_mem_split {sep : Char} {cs piece : List Char} (h : piece ∈ split sep cs) :
    sep ∉ piece := by
  induction cs generalizing piece with
  | nil =>
    obtain rfl : piece = [] := by simpa [split] using h
    simp
  | cons c rest ih =>
    rw [split] at h
    split at h
    · rcases List.mem_cons.mp h with rfl | h
      · simp
      · exact ih h
    · rename_i hc
      cases hs : split sep rest with
      | nil =>
        obtain rfl : piece = [c] := by simpa [hs] using h
        simpa using Ne.symm hc
      | cons first pieces =>
        rw [hs] at h
        rcases List.mem_cons.mp h with rfl | h
        · have hfirst : sep ∉ first := ih (by simp [hs])
          simp [Ne.symm hc, hfirst]
        · exact ih (by simp [hs, h])

/-- The fields of a row hold no comma, the last one is not empty, and the row is the fields with
commas between them, and possibly empty ones behind. -/
structure HasFields (row : List Char) (fields : List (List Char)) : Prop where
  no_comma : ∀ f ∈ fields, ',' ∉ f
  last_ne_nil : ∀ f ∈ fields.getLast?, f ≠ []
  joined : ∃ k, row = [','].intercalate (fields ++ List.replicate k [])

theorem fields_eq_iff {row : List Char} {fields : List (List Char)} :
    dropTrailing (·.isEmpty) (split ',' row) = fields ↔ HasFields row fields := by
  rw [dropTrailing_eq_iff]
  constructor
  · rintro ⟨hlast, tail, htail, heq⟩
    refine ⟨?_, ?_, tail.length, ?_⟩
    · intro f hf
      exact not_mem_of_mem_split (heq ▸ List.mem_append_left tail hf)
    · intro f hf
      simpa using hlast f hf
    · have empty : tail = List.replicate tail.length [] :=
        List.eq_replicate_iff.mpr ⟨rfl, fun f hf => by simpa using htail f hf⟩
      rw [← empty, ← heq, split_eq_splitOn, List.intercalate_splitOn]
  · rintro ⟨hcomma, hlast, k, rfl⟩
    refine ⟨fun f hf => by simpa using hlast f hf, ?_⟩
    rw [split_eq_splitOn]
    cases hall : fields ++ List.replicate k [] with
    | nil =>
      -- a row without any field is the empty one, and has one empty piece
      obtain ⟨rfl, -⟩ := List.append_eq_nil_iff.mp hall
      exact ⟨[[]], by simp, rfl⟩
    | cons f rest =>
      refine ⟨List.replicate k [], by simp, ?_⟩
      rw [← hall]
      apply List.splitOn_intercalate
      · intro g hg
        rcases List.mem_append.mp hg with hg | hg
        · exact hcomma g hg
        · simp [List.eq_of_mem_replicate hg]
      · simp [hall]

/-! ## Lines -/

/-- A text has lines: each but the last ends with a line feed, or with a carriage return and a
line feed, and the last one may do without. A return before a feed is part of the end. -/
inductive HasLines : List Char → List (List Char) → Prop where
  | nil : HasLines [] []
  | last {line : List Char} (hline : '\n' ∉ line) (hne : line ≠ []) : HasLines line [line]
  | feed {line text : List Char} {lines : List (List Char)} (hline : '\n' ∉ line)
      (hreturn : line.getLast? ≠ some '\r') (rest : HasLines text lines) :
      HasLines (line ++ '\n' :: text) (line :: lines)
  | returnFeed {line text : List Char} {lines : List (List Char)} (hline : '\n' ∉ line)
      (rest : HasLines text lines) : HasLines (line ++ '\r' :: '\n' :: text) (line :: lines)

theorem lines_of_not_mem {line : List Char} (h : '\n' ∉ line) :
    lines line = if line = [] then [] else [line] := by
  rw [lines, split_eq_splitOn, List.splitOn_eq_singleton h]
  cases line <;> rfl

theorem lines_append_feed {line : List Char} (h : '\n' ∉ line) (text : List Char) :
    lines (line ++ '\n' :: text) =
      (if line.getLast? = some '\r' then line.dropLast else line) :: lines text := by
  unfold lines
  simp only [split_eq_splitOn]
  rw [List.splitOn_append_cons_self_of_not_mem h]
  have hne := List.splitOn_ne_nil '\n' text
  cases hs : text.splitOn '\n' with
  | nil => exact absurd hs hne
  | cons piece pieces =>
    simp only [List.dropLast_cons_cons, List.map_cons, List.getLast?_cons_cons]
    split <;> rfl

theorem HasLines.lines_eq {text : List Char} {ls : List (List Char)} (h : HasLines text ls) :
    lines text = ls := by
  induction h with
  | nil => rfl
  | last hline hne => rw [lines_of_not_mem hline, if_neg hne]
  | feed hline hreturn _ ih => rw [lines_append_feed hline, if_neg hreturn, ih]
  | @returnFeed line text ls hline _ ih =>
    have hreturn : '\n' ∉ line ++ ['\r'] := by simp [hline]
    have heq : line ++ '\r' :: '\n' :: text = (line ++ ['\r']) ++ '\n' :: text := by simp
    rw [heq, lines_append_feed hreturn, if_pos (by simp), List.dropLast_concat, ih]

/-- Every text has lines. -/
theorem exists_hasLines (text : List Char) : ∃ ls, HasLines text ls := by
  by_cases hfeed : '\n' ∈ text
  · obtain ⟨line, rest, heq, hline⟩ := List.eq_append_cons_of_mem hfeed
    have shorter : rest.length < text.length := by
      rw [heq, List.length_append, List.length_cons]
      omega
    obtain ⟨ls, hrest⟩ := exists_hasLines rest
    rw [heq]
    by_cases hreturn : line.getLast? = some '\r'
    · obtain ⟨front, rfl⟩ := List.getLast?_eq_some_iff.mp hreturn
      have hfront : '\n' ∉ front := fun h => hline (by simp [h])
      refine ⟨front :: ls, ?_⟩
      rw [List.append_assoc]
      exact .returnFeed hfront hrest
    · exact ⟨line :: ls, .feed hline hreturn hrest⟩
  · by_cases hne : text = []
    · subst hne
      exact ⟨[], .nil⟩
    · exact ⟨[text], .last hfeed hne⟩
termination_by text.length

end PermissionAudit.Fields
