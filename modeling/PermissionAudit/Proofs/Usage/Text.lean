import PermissionAudit.Proofs.Text.Digits
import PermissionAudit.Proofs.Text.Fields
import PermissionAudit.Proofs.Usage.Acceptance

/-!
The text of a report can be read back. A line has the name up to its first colon, the
number up to the second, and callers with commas between them; where no name and no
caller holds the character that ends it, the lines of the text give the names and the
callers of the report. The text for a report without entries is no such line, since
it has no colon.
-/

namespace PermissionAudit

/-! ## Separators -/

namespace Fields

variable {sep : Char}

theorem not_mem_intercalate {c : Char} (hc : c ≠ sep) {pieces : List (List Char)}
    (h : ∀ piece ∈ pieces, c ∉ piece) : c ∉ [sep].intercalate pieces := by
  induction pieces with
  | nil => simp
  | cons piece rest ih =>
    cases rest with
    | nil => simpa using h
    | cons next later =>
      have behind := ih fun other hother => h other (by simp [hother])
      rw [List.intercalate_cons_cons]
      simp [h piece (by simp), hc, behind]

/-- Pieces that are each ended by a separator are the pieces of the text, with nothing behind. -/
theorem split_flatMap_ended {pieces : List (List Char)} (h : ∀ piece ∈ pieces, sep ∉ piece) :
    split sep (pieces.flatMap (· ++ [sep])) = pieces ++ [[]] := by
  rw [split_eq_splitOn]
  induction pieces with
  | nil => rfl
  | cons piece rest ih =>
    rw [List.flatMap_cons, List.append_assoc, List.singleton_append,
      List.splitOn_append_cons_self_of_not_mem (h piece (by simp)),
      ih fun other hother => h other (by simp [hother]), List.cons_append]

end Fields

namespace UsageReport

/-! ## Lines -/

/-- What a report says of each API: its name and its callers. -/
def rows (r : UsageReport) : List (String × List String) :=
  r.entries.map fun u => (u.apiName, u.callers)

/-- Names hold neither a colon nor a line feed, callers neither a comma nor a line feed. -/
def Separable (r : UsageReport) : Prop :=
  ∀ u ∈ r.entries, ':' ∉ u.apiName.toList ∧ '\n' ∉ u.apiName.toList ∧
    ∀ caller ∈ u.callers, ',' ∉ caller.toList ∧ '\n' ∉ caller.toList

/-- The line of an entry, without its end. -/
def line (u : ApiUsage) : List Char :=
  u.apiName.toList ++ ':' :: ((toString u.count).toList ++
    ':' :: [','].intercalate (u.callers.map String.toList))

theorem toList_entryLine (u : ApiUsage) : (entryLine u).toList = line u ++ ['\n'] := by
  simp [entryLine, line, Fields.join, String.toList_append, String.toList_intercalate]

theorem colon_mem_line (u : ApiUsage) : ':' ∈ line u := by simp [line]

/-- The text is the lines, each with a line feed behind it. -/
theorem toList_text {r : UsageReport} (h : r.isEmpty = false) :
    r.text.toList = (r.entries.map line).flatMap (· ++ ['\n']) := by
  rw [text, h, if_neg Bool.false_ne_true, String.toList_join, List.flatMap_map, List.flatMap_map]
  simp only [toList_entryLine]

theorem feed_not_mem_line {r : UsageReport} (h : r.Separable) {u : ApiUsage} (hu : u ∈ r.entries) :
    '\n' ∉ line u := by
  obtain ⟨-, name, callers⟩ := h u hu
  have number : '\n' ∉ (toString u.count).toList := Digits.not_mem_number rfl _
  have joined : '\n' ∉ [','].intercalate (u.callers.map String.toList) := by
    apply Fields.not_mem_intercalate (by decide)
    intro piece hpiece
    obtain ⟨caller, hcaller, rfl⟩ := List.mem_map.mp hpiece
    exact (callers caller hcaller).2
  rw [line, List.mem_append, List.mem_cons, List.mem_append, List.mem_cons]
  simp only [name, number, joined, false_or, or_false]
  decide

/-- The text for no entries has no colon, and every line has one. -/
theorem text_eq_noneDetected_iff (r : UsageReport) :
    r.text = noneDetected ++ "\n" ↔ r.isEmpty = true := by
  constructor
  · intro h
    by_contra nonempty
    rw [Bool.not_eq_true] at nonempty
    obtain ⟨u, hu⟩ := List.exists_mem_of_ne_nil r.entries (List.isEmpty_eq_false_iff.mp nonempty)
    have colon : ':' ∈ r.text.toList := by
      rw [toList_text nonempty, List.mem_flatMap]
      exact ⟨line u, List.mem_map_of_mem hu, List.mem_append_left _ (colon_mem_line u)⟩
    rw [h] at colon
    exact absurd colon (by decide)
  · intro h
    rw [text, if_pos h]

/-! ## Reading back -/

/-- The name and the callers that a line is for. -/
def readLine (line : List Char) : String × List String :=
  let number := (line.dropWhile (· ≠ ':')).tail
  let callers := (number.dropWhile (· ≠ ':')).tail
  (String.ofList (line.takeWhile (· ≠ ':')), (Fields.split ',' callers).map String.ofList)

/-- What a text says of each API. -/
def readText (text : String) : List (String × List String) :=
  if text = noneDetected ++ "\n" then []
  else (Fields.split '\n' text.toList).dropLast.map readLine

theorem readLine_line {u : ApiUsage} (name : ':' ∉ u.apiName.toList) (called : u.calls ≠ [])
    (callers : ∀ caller ∈ u.callers, ',' ∉ caller.toList) :
    readLine (line u) = (u.apiName, u.callers) := by
  have number : ':' ∉ (toString u.count).toList := Digits.not_mem_number rfl _
  have some_caller : u.callers.map String.toList ≠ [] := by simpa [ApiUsage.callers] using called
  have pieces : Fields.split ',' ([','].intercalate (u.callers.map String.toList)) =
      u.callers.map String.toList := by
    rw [Fields.split_eq_splitOn]
    apply List.splitOn_intercalate _ _ some_caller
    intro piece hpiece
    obtain ⟨caller, hcaller, rfl⟩ := List.mem_map.mp hpiece
    exact callers caller hcaller
  simp only [readLine, line, Fields.takeWhile_ne_append name, Fields.dropWhile_ne_append name,
    List.tail_cons, Fields.dropWhile_ne_append number, pieces, String.ofList_toList]
  simp

/-- The text of a report whose entries all have a call gives back what the report says. -/
theorem readText_text {r : UsageReport} (h : r.Separable)
    (called : ∀ u ∈ r.entries, u.calls ≠ []) : readText r.text = r.rows := by
  rw [readText]
  by_cases hempty : r.isEmpty = true
  · rw [if_pos ((text_eq_noneDetected_iff r).mpr hempty), rows, List.isEmpty_iff.mp hempty]
    rfl
  · rw [if_neg (mt (text_eq_noneDetected_iff r).mp hempty), rows]
    rw [Bool.not_eq_true] at hempty
    have ended : ∀ piece ∈ r.entries.map line, '\n' ∉ piece := by
      intro piece hpiece
      obtain ⟨u, hu, rfl⟩ := List.mem_map.mp hpiece
      exact feed_not_mem_line h hu
    rw [toList_text hempty, Fields.split_flatMap_ended ended, List.dropLast_concat, List.map_map]
    refine List.map_congr_left fun u hu => ?_
    obtain ⟨name, -, callers⟩ := h u hu
    exact readLine_line name (called u hu) fun caller hcaller => (callers caller hcaller).1

/-- **Texts tell reports apart.** Where no name holds a colon or a line feed and no caller a comma
or a line feed, two reports of recorded sites that have one text have the same names in the same
order, each with the same callers. Such a report with entries is one line for each of them, each
ended by a line feed and without another. Whatever the names are, the text that says that nothing
was found is that of the report without entries only. -/
theorem text_unambiguous (sites others : List CallSite) :
    let r := (UsageLedger.empty.recordAll sites).report
    let r' := (UsageLedger.empty.recordAll others).report
    (r.Separable → r'.Separable → r.text = r'.text → r.rows = r'.rows) ∧
      (r.Separable → r.isEmpty = false →
        r.text.toList = (r.entries.map line).flatMap (· ++ ['\n']) ∧
          ∀ u ∈ r.entries, '\n' ∉ line u) ∧
      (r.text = noneDetected ++ "\n" ↔ r.isEmpty = true) := by
  have called (sites : List CallSite) :
      ∀ u ∈ (UsageLedger.empty.recordAll sites).report.entries, u.calls ≠ [] := by
    rw [UsageLedger.report_recordAll]
    intro u hu
    exact calls_ne_nil_of_mem_ofSites hu
  intro r r'
  refine ⟨?_, ?_, text_eq_noneDetected_iff r⟩
  · intro h h' same
    rw [← readText_text h (called sites), same, readText_text h' (called others)]
  · intro h nonempty
    exact ⟨toList_text nonempty, fun u hu => feed_not_mem_line h hu⟩

/-- Three calls of two APIs, from two callers, each at its own place from an offset on. -/
def threeCalls (offset : Nat) : List CallSite :=
  [⟨"open", "dev.Camera.open", "app.Main.run()", ⟨0, offset⟩⟩,
    ⟨"find", "dev.Gps.find", "app.Main.<init>()", ⟨1, offset⟩⟩,
    ⟨"open", "dev.Nfc.open", "app.Main.run()", ⟨0, offset + 3⟩⟩]

/-- Places do not show in the text, names and callers do. -/
theorem threeCalls_told_by_text :
    let r := (UsageLedger.empty.recordAll (threeCalls 0)).report
    let r' := (UsageLedger.empty.recordAll (threeCalls 7)).report
    r.Separable ∧ r'.Separable ∧ r.isEmpty = false ∧ r.text = r'.text ∧ r.rows = r'.rows ∧
      r.text = "open:2:app.Main.run(),app.Main.run()\nfind:1:app.Main.<init>()\n" := by
  intro r r'
  have separable : r.Separable := by
    unfold Separable
    decide
  have separable' : r'.Separable := by
    unfold Separable
    decide
  have texts : r.text = r'.text := rfl
  exact ⟨separable, separable', rfl, texts,
    (text_unambiguous (threeCalls 0) (threeCalls 7)).1 separable separable' texts, rfl⟩

end UsageReport

end PermissionAudit
