import PermissionAudit.Proofs.Program.Dot.Lexing
import PermissionAudit.Proofs.Registry.Body
import PermissionAudit.Proofs.Text.Digits

/-!
The strings of a flow graph in the DOT language. A document is put together from
plain pieces and quoted labels, so its quoted strings are the labels it is meant to
show as long as each text has an even number of backslashes before every quote and
at its end. The text of a string constant has it if the constant has; a constant
that ends with a single backslash breaks the document.
-/

namespace PermissionAudit

namespace FlowGraph

open Dot

/-! ## Pieces of a document -/

theorem toList_escapeLabel (t : String) : (escapeLabel t).toList = escapeChars t.toList :=
  String.toList_ofList

theorem shows_quoted (t : String) : Shows (quoted (escapeLabel t)).toList [t.toList] := by
  have pieces : (quoted (escapeLabel t)).toList = '"' :: (escapeChars t.toList ++ ['"']) := by
    simp [quoted, String.toList_append, toList_escapeLabel]
  rw [pieces]
  exact .label t.toList

theorem shows_number (n : Nat) : Shows (toString n).toList [] :=
  .plain (Digits.not_mem_number rfl n)

/-- A statement on its line. -/
def line (s : String) : String := "    " ++ s ++ ";\n"

theorem shows_line {s : String} {texts : List (List Char)} (h : Shows s.toList texts) :
    Shows (line s).toList texts := by
  have indent : Shows "    ".toList [] := .plain (by decide)
  have ending : Shows ";\n".toList [] := .plain (by decide)
  have pieces := (indent.append h).append ending
  rw [List.nil_append, List.append_nil] at pieces
  rw [line, String.toList_append, String.toList_append]
  exact pieces

/-- Statements, each on its line, show what each of them shows. -/
theorem shows_lines {α : Type} {xs : List α} {statement : α → String}
    {texts : α → List (List Char)} (h : ∀ x ∈ xs, Shows (statement x).toList (texts x)) :
    Shows ((xs.map statement).flatMap fun s => (line s).toList) (xs.flatMap texts) := by
  rw [List.flatMap_map]
  refine .flatMap ?_
  intro x hx
  exact shows_line (h x hx)

theorem shows_edge (a b : String) :
    Shows (quoted (escapeLabel a) ++ "->" ++ quoted (escapeLabel b)).toList
      [a.toList, b.toList] := by
  have arrow : Shows "->".toList [] := .plain (by decide)
  rw [String.toList_append, String.toList_append]
  exact ((shows_quoted a).append arrow).append (shows_quoted b)

theorem shows_numbered (n : Nat) (t : String) :
    Shows ("n" ++ toString n ++ " [label=" ++ quoted (escapeLabel t) ++ "]").toList [t.toList] := by
  have letter : Shows "n".toList [] := .plain (by decide)
  have opening : Shows " [label=".toList [] := .plain (by decide)
  have closing : Shows "]".toList [] := .plain (by decide)
  simp only [String.toList_append]
  exact (((letter.append (shows_number n)).append opening).append (shows_quoted t)).append closing

theorem shows_numberedEdge (m n : Nat) :
    Shows ("n" ++ toString m ++ "->n" ++ toString n).toList [] := by
  have letter : Shows "n".toList [] := .plain (by decide)
  have arrow : Shows "->n".toList [] := .plain (by decide)
  simp only [String.toList_append]
  exact ((letter.append (shows_number m)).append arrow).append (shows_number n)

/-! ## Documents -/

section

variable {g : FlowGraph} {texts : List String} {edges : List (String × String)}
  (labels : g.labels = texts.map escapeLabel)

include labels

/-- Keyed by label, nodes and the ends of edges are labels. -/
theorem shows_statements_label (keyed : g.keying = .label)
    (ends : g.edgeLabels = edges.map fun e => (escapeLabel e.1, escapeLabel e.2)) :
    Shows (g.statements.flatMap fun s => (line s).toList)
      (texts.map String.toList ++ edges.flatMap fun e => [e.1.toList, e.2.toList]) := by
  have nodes := shows_lines fun t (_ : t ∈ texts) => shows_quoted t
  have arrows := shows_lines fun e (_ : e ∈ edges) => shows_edge e.1 e.2
  have each : texts.map String.toList = texts.flatMap fun t => [t.toList] := List.map_eq_flatMap
  rw [statements, keyed]
  dsimp only
  rw [labels, ends, List.map_map, List.map_map, List.flatMap_append, each]
  exact nodes.append arrows

/-- Keyed by instruction, nodes are numbers that have labels. -/
theorem shows_statements_instruction (keyed : g.keying = .instruction) :
    Shows (g.statements.flatMap fun s => (line s).toList) (texts.map String.toList) := by
  have nodes := shows_lines fun n (_ : n ∈ texts.zipIdx) => shows_numbered n.2 n.1
  have arrows := shows_lines fun e (_ : e ∈ g.edges) => shows_numberedEdge e.1 e.2
  have each : texts.zipIdx.flatMap (fun n => [n.1.toList]) = texts.map String.toList := by
    rw [← List.map_eq_flatMap, ← Function.comp_def String.toList Prod.fst, ← List.map_map,
      List.zipIdx_map_fst]
  have none : g.edges.flatMap (fun _ => ([] : List (List Char))) = [] := by simp
  have both := nodes.append arrows
  rw [each, none, List.append_nil] at both
  rw [statements, keyed]
  dsimp only
  rw [labels, List.zipIdx_map, List.map_map, List.flatMap_append]
  exact both

end

theorem shows_dot {g : FlowGraph} {texts : List (List Char)}
    (h : Shows (g.statements.flatMap fun s => (line s).toList) texts) (name : String) :
    Shows (g.dot name).toList (name.toList :: texts) := by
  have opening : Shows "digraph ".toList [] := .plain (by decide)
  have brace : Shows " \x7b\n".toList [] := .plain (by decide)
  have closing : Shows "\x7d\n".toList [] := .plain (by decide)
  have pieces := (((opening.append (shows_quoted name)).append brace).append h).append closing
  have shown : [] ++ [name.toList] ++ [] ++ texts ++ [] = name.toList :: texts := by simp
  have document : g.dot name = "digraph " ++ quoted (escapeLabel name) ++ " \x7b\n" ++
      String.join (g.statements.map line) ++ "\x7d\n" := rfl
  rw [shown] at pieces
  rw [document]
  simp only [String.toList_append, String.toList_join, List.flatMap_map]
  exact pieces

/-- The texts that the document of a body is meant to show: its name, those of the nodes and,
keyed by label, those at the ends of the edges. -/
def shownTexts (b : Body) (keying : NodeKeying) (name : String) : List String :=
  match keying with
  | .label => name :: (distinct ((mentions b).map (textAt b.instrs)) ++
      (steps b).flatMap fun e => [textAt b.instrs e.1, textAt b.instrs e.2])
  | .instruction => name :: (distinct (mentions b)).map (textAt b.instrs)

theorem shows_build (b : Body) (keying : NodeKeying) (name : String) :
    Shows ((build b keying).value.dot name).toList
      ((shownTexts b keying name).map String.toList) := by
  cases keying with
  | label =>
    have ends : (build b .label).value.edgeLabels =
        ((steps b).map fun e => (textAt b.instrs e.1, textAt b.instrs e.2)).map
          fun e => (escapeLabel e.1, escapeLabel e.2) := by
      rw [(edges_build b .label).2, List.map_map]
      rfl
    have shown := shows_dot (shows_statements_label (exact_label b).labels rfl ends) name
    simpa [shownTexts, List.flatMap_map, List.map_flatMap] using shown
  | instruction =>
    have labels : (build b .instruction).value.labels =
        ((distinct (mentions b)).map (textAt b.instrs)).map escapeLabel := by
      rw [(exact_instruction b).labels, List.map_map]
      rfl
    exact shows_dot (shows_statements_instruction labels rfl) name

theorem mem_shownTexts {b : Body} {keying : NodeKeying} {name t : String} :
    t ∈ shownTexts b keying name ↔ t = name ∨ ∃ instr ∈ b.instrs, instr.text.value = t := by
  rw [← mem_distinct_mentions_texts b]
  cases keying with
  | label =>
    have ends (h : t ∈ (steps b).flatMap fun e => [textAt b.instrs e.1, textAt b.instrs e.2]) :
        t ∈ distinct ((mentions b).map (textAt b.instrs)) := by
      obtain ⟨⟨i, s⟩, hstep, ht⟩ := List.mem_flatMap.mp h
      obtain ⟨source, target⟩ := mentioned_of_mem_steps hstep
      rw [mem_distinct]
      rcases List.mem_pair.mp ht with rfl | rfl
      · exact List.mem_map_of_mem source
      · exact List.mem_map_of_mem target
    rw [shownTexts, List.mem_cons, List.mem_append]
    exact or_congr_right ⟨fun h => h.elim id ends, .inl⟩
  | instruction =>
    rw [shownTexts, List.mem_cons, mem_distinct, List.mem_map, List.mem_map]
    simp only [mem_distinct]

/-- The quoted strings of a document are those that are meant exactly if all texts are even. -/
theorem strings_dot_iff (b : Body) (keying : NodeKeying) (name : String) :
    strings ((build b keying).value.dot name).toList =
        some ((shownTexts b keying name).map fun t => (escapeLabel t).toList) ↔
      EvenBackslashes name.toList ∧
        ∀ instr ∈ b.instrs, EvenBackslashes instr.text.value.toList := by
  have labels : (shownTexts b keying name).map (fun t => (escapeLabel t).toList) =
      ((shownTexts b keying name).map String.toList).map escapeChars := by
    rw [List.map_map]
    exact List.map_congr_left fun t _ => toList_escapeLabel t
  rw [labels, (shows_build b keying name).strings_iff, List.forall_mem_map]
  simp only [mem_shownTexts, forall_eq_or_imp, forall_exists_index, and_imp,
    forall_apply_eq_imp_iff₂]

end FlowGraph

/-! ## String constants -/

namespace Dot

theorem checkBackslashes_append_plain {front : List Char} (quote : '"' ∉ front)
    (backslash : '\\' ∉ front) (rest : List Char) :
    checkBackslashes false (front ++ rest) = checkBackslashes false rest := by
  induction front with
  | nil => rfl
  | cons c front ih =>
    rw [List.mem_cons, not_or] at quote backslash
    rw [List.cons_append, checkBackslashes, if_neg (Ne.symm quote.1), if_neg (Ne.symm backslash.1)]
    exact ih quote.2 backslash.2

/-- A quote at the end asks for what the end asks for. -/
theorem checkBackslashes_append_quote (odd : Bool) (cs : List Char) :
    checkBackslashes odd (cs ++ ['"']) = checkBackslashes odd cs := by
  induction cs generalizing odd with
  | nil => simp [checkBackslashes]
  | cons c cs ih => simp only [List.cons_append, checkBackslashes, ih]

/-- A line feed that is written with a backslash ends a row of backslashes as it does itself. -/
theorem checkBackslashes_lineFeeds (odd : Bool) (cs : List Char) :
    checkBackslashes odd (cs.flatMap fun c => if c = '\n' then ['\\', 'n'] else [c]) =
      checkBackslashes odd cs := by
  induction cs generalizing odd with
  | nil => rfl
  | cons c cs ih =>
    rw [List.flatMap_cons]
    by_cases feed : c = '\n'
    · subst feed
      simp [checkBackslashes, ih]
    · rw [if_neg feed, List.cons_append, List.nil_append]
      simp only [checkBackslashes, ih]

theorem evenBackslashes_constantText {front : List Char} (quote : '"' ∉ front)
    (backslash : '\\' ∉ front) (s : String) :
    EvenBackslashes (front ++ (Dex.constantText s).toList) ↔ EvenBackslashes s.toList := by
  have pieces : (Dex.constantText s).toList =
      '"' :: ((s.toList.flatMap fun c => if c = '\n' then ['\\', 'n'] else [c]) ++ ['"']) := by
    simp [Dex.constantText, String.toList_append]
  have opening (cs : List Char) : checkBackslashes false ('"' :: cs) = checkBackslashes false cs :=
    rfl
  rw [evenBackslashes_iff, evenBackslashes_iff, checkBackslashes_append_plain quote backslash,
    pieces, opening, checkBackslashes_append_quote, checkBackslashes_lineFeeds]

end Dot

/-- An instruction that loads a string is written with its opcode, its register and the string. -/
theorem Located.text_of_stringIndex? {dex : Dex} {l : Located} {index : Nat} {s : String}
    (hi : l.instr.stringIndex? = some index) (hs : dex.string index = .ok s) :
    ∃ mnemonic register, (mnemonic = "const-string" ∨ mnemonic = "const-string/jumbo") ∧
      l.text dex = .ok (mnemonic ++ (" " ++ Instruction.registerText register ++ ", " ++
        Dex.constantText s)) := by
  obtain ⟨addr, opcode, operands⟩ := l
  cases operands with
  | regRef register i =>
    obtain ⟨constant, found⟩ := Option.ite_none_right_eq_some.mp hi
    obtain rfl := Option.some.inj found
    have named : dex.referenceText .string i = .ok (Dex.constantText s) := by
      rw [Dex.referenceText, hs]
      rfl
    rcases constant with rfl | rfl
    · refine ⟨"const-string", register, .inl rfl, ?_⟩
      show (dex.referenceText .string i >>= _) = _
      rw [named]
      rfl
    · refine ⟨"const-string/jumbo", register, .inr rfl, ?_⟩
      show (dex.referenceText .string i >>= _) = _
      rw [named]
      rfl
  | _ => cases hi

/-- The text of an instruction that loads a string is even if the string is. -/
theorem Located.evenBackslashes_text {dex : Dex} {l : Located} {index : Nat} {s : String}
    (hi : l.instr.stringIndex? = some index) (hs : dex.string index = .ok s) :
    ∃ text, l.text dex = .ok text ∧
      (Dot.EvenBackslashes text.toList ↔ Dot.EvenBackslashes s.toList) := by
  obtain ⟨mnemonic, register, known, rendered⟩ := text_of_stringIndex? hi hs
  refine ⟨_, rendered, ?_⟩
  have plain {c : Char} (digit : c.isDigit = false) (short : c ∉ "const-string v, ".toList)
      (jumbo : c ∉ "const-string/jumbo v, ".toList) :
      c ∉ mnemonic.toList ++ (" v".toList ++ (toString register).toList ++ ", ".toList) := by
    have number := Digits.not_mem_number digit register
    rcases known with rfl | rfl
    · simp_all
    · simp_all
  have pieces : (mnemonic ++ (" " ++ Instruction.registerText register ++ ", " ++
      Dex.constantText s)).toList =
      (mnemonic.toList ++ (" v".toList ++ (toString register).toList ++ ", ".toList)) ++
        (Dex.constantText s).toList := by
    simp [Instruction.registerText, String.toList_append]
  rw [pieces]
  exact Dot.evenBackslashes_constantText (plain rfl (by decide) (by decide))
    (plain rfl (by decide) (by decide)) s

/-- **Quoted strings.** A label with a closing quote is read up to that quote exactly if its text
has an even number of backslashes before every quote and at the end; the text of a string constant
has it if the constant has. The quoted strings of the document of a body are the name and the labels
that it is meant to show exactly if all these texts have it. -/
theorem FlowGraph.dot_strings_exact (b : Body) (keying : NodeKeying) (name : String) :
    (∀ (text : String) (rest : List Char),
      Dot.readString ((escapeLabel text).toList ++ '"' :: rest) =
          some ((escapeLabel text).toList, rest) ↔ Dot.EvenBackslashes text.toList) ∧
      (∀ (dex : Dex) (l : Located) (index : Nat) (s : String),
        l.instr.stringIndex? = some index → dex.string index = .ok s →
          ∃ text, l.text dex = .ok text ∧
            (Dot.EvenBackslashes text.toList ↔ Dot.EvenBackslashes s.toList)) ∧
      (Dot.strings ((build b keying).value.dot name).toList =
          some ((shownTexts b keying name).map fun t => (escapeLabel t).toList) ↔
        Dot.EvenBackslashes name.toList ∧
          ∀ instr ∈ b.instrs, Dot.EvenBackslashes instr.text.value.toList) := by
  refine ⟨?_, ?_, strings_dot_iff b keying name⟩
  · intro text rest
    rw [toList_escapeLabel]
    exact Dot.readString_escapeChars_iff
  · intro dex l index s hi hs
    exact Located.evenBackslashes_text hi hs

/-! ## Code that loads a string -/

/-- A file with code that loads a string and returns; the string is coded by the bytes. -/
def constantDex (coded : Bytes) : Dex where
  header := ⟨35, 0, [], 0, 0, 0, ⟨0, 0⟩, ⟨0, 0⟩, ⟨0, 0⟩, ⟨0, 0⟩, ⟨0, 0⟩, ⟨0, 0⟩⟩
  raw := [1, 0, 0, 0, 0, 0, 0, 0, 0, 0, 0, 0, 3, 0, 0, 0, 0x1A, 0, 0, 0, 0x0E, 0] ++
    0 :: (coded ++ [0])
  strings := [22]
  types := []
  protos := []
  fields := []
  methods := []
  classes := []

/-- The method with that code. -/
def constantEntry (coded : Bytes) : MethodEntry := ⟨constantDex coded, ⟨0, 0, some 0⟩⟩

theorem exists_body_of_texts {entry : MethodEntry} {texts : List String}
    (h : entry.body.value.toOption.map (fun b => b.instrs.map (·.text.value)) = some texts) :
    ∃ b, entry.body.value = .ok b ∧ b.instrs.map (·.text.value) = texts := by
  cases hb : entry.body.value with
  | error e =>
    rw [hb] at h
    cases h
  | ok b =>
    rw [hb] at h
    exact ⟨b, rfl, Option.some.inj h⟩

/-- A backslash before a letter and a quote of its own do no harm. -/
theorem constantEntry_shown :
    (∃ text, (⟨0, 0x1A, .regRef 0 0⟩ : Located).text (constantDex [0x61, 0x5C, 0x62, 0x22]) =
        .ok text ∧ Dot.EvenBackslashes text.toList) ∧
      ∃ b, (constantEntry [0x61, 0x5C, 0x62, 0x22]).body.value = .ok b ∧
        ∀ keying, Dot.strings ((FlowGraph.build b keying).value.dot "A_f.dot").toList =
          some ((FlowGraph.shownTexts b keying "A_f.dot").map fun t => (escapeLabel t).toList) := by
  have decoded : (constantDex [0x61, 0x5C, 0x62, 0x22]).string 0 = .ok "a\\b\"" := by decide +kernel
  obtain ⟨b, hb, texts⟩ : ∃ b, (constantEntry [0x61, 0x5C, 0x62, 0x22]).body.value = .ok b ∧
      b.instrs.map (·.text.value) = ["const-string v0, \"a\\b\"\"", "return-void"] :=
    exists_body_of_texts (by decide +kernel)
  obtain ⟨-, constants, -⟩ := FlowGraph.dot_strings_exact b .label "A_f.dot"
  obtain ⟨text, rendered, even⟩ := constants _ ⟨0, 0x1A, .regRef 0 0⟩ 0 _ rfl decoded
  refine ⟨⟨text, rendered, even.mpr (by decide)⟩, b, hb, ?_⟩
  intro keying
  obtain ⟨-, -, document⟩ := FlowGraph.dot_strings_exact b keying "A_f.dot"
  refine document.mpr ⟨by decide, ?_⟩
  intro instr hinstr
  have shown : instr.text.value ∈ b.instrs.map (·.text.value) := List.mem_map_of_mem hinstr
  rw [texts] at shown
  rcases List.mem_pair.mp shown with h | h <;> rw [h] <;> decide

/-- **A string that ends with a backslash breaks its label**: the quote behind it ends the string,
and the closing quote opens another one. The document of the method does not show what it is meant
to show. -/
theorem constantEntry_backslash_breaks :
    ∃ b, (constantEntry [0x5C]).body.value = .ok b ∧
      b.instrs.map (·.text.value) = ["const-string v0, \"\\\"", "return-void"] ∧
      Dot.readString ((escapeLabel "const-string v0, \"\\\"").toList ++ ['"']) =
        some ("const-string v0, \\\"\\\\".toList, ['"']) ∧
      ∀ keying name, Dot.strings ((FlowGraph.build b keying).value.dot name).toList ≠
        some ((FlowGraph.shownTexts b keying name).map fun t => (escapeLabel t).toList) := by
  obtain ⟨b, hb, texts⟩ : ∃ b, (constantEntry [0x5C]).body.value = .ok b ∧
      b.instrs.map (·.text.value) = ["const-string v0, \"\\\"", "return-void"] :=
    exists_body_of_texts (by decide +kernel)
  refine ⟨b, hb, texts, by decide, ?_⟩
  intro keying name shown
  obtain ⟨-, even⟩ := (FlowGraph.strings_dot_iff b keying name).mp shown
  have first : "const-string v0, \"\\\"" ∈ b.instrs.map (·.text.value) := by
    rw [texts]
    exact List.mem_cons_self
  obtain ⟨instr, hinstr, htext⟩ := List.mem_map.mp first
  have odd : ¬ Dot.EvenBackslashes "const-string v0, \"\\\"".toList := by decide
  exact odd (htext ▸ even instr hinstr)

end PermissionAudit
