import PermissionAudit.Proofs.Permission.Table
import PermissionAudit.Proofs.Sequence.Checked

/-!
Blanks around the fields of a table. A row contributes if one of its fields from
the third on is not empty; the fields are trimmed only afterwards. So blanks change
nothing, unless they are put into a row whose fields from the third on are all empty:
such a row then puts its call under the permission without a name.
-/

namespace PermissionAudit

namespace Fields

/-! ## Blanks around a text -/

/-- The second text is the first with blanks on either side. -/
def Pads (f g : List Char) : Prop :=
  ∃ front tail, (∀ c ∈ front, isBlank c = true) ∧ (∀ c ∈ tail, isBlank c = true) ∧
    g = front ++ f ++ tail

/-- So many characters are blanks in front of the text, and those behind it are blanks as well. -/
def padsAfter (f g : List Char) (count : Nat) : Bool :=
  (g.take count).all isBlank && f.isPrefixOf (g.drop count) &&
    (g.drop (count + f.length)).all isBlank

section

variable {f g token : List Char}

theorem any_padsAfter_iff : (List.range (g.length + 1)).any (padsAfter f g) = true ↔ Pads f g := by
  simp only [List.any_eq_true, padsAfter, Bool.and_eq_true, List.all_eq_true,
    List.isPrefixOf_iff_prefix, List.mem_range]
  constructor
  · rintro ⟨count, -, ⟨hfront, tail, heq⟩, htail⟩
    rw [← List.drop_drop, ← heq, List.drop_left] at htail
    refine ⟨g.take count, tail, hfront, htail, ?_⟩
    rw [List.append_assoc, heq, List.take_append_drop]
  · rintro ⟨front, tail, hfront, htail, rfl⟩
    refine ⟨front.length, by simp only [List.length_append]; omega, ⟨?_, ?_⟩, ?_⟩
    · simpa using hfront
    · simp
    · rw [← List.length_append, List.drop_left]
      exact htail

instance (f g : List Char) : Decidable (Pads f g) := decidable_of_iff _ any_padsAfter_iff

theorem Pads.trim_eq (h : Pads f g) : trim g = trim f := by
  obtain ⟨front, tail, hfront, htail, rfl⟩ := h
  obtain ⟨head, last, before, after, hbefore, hafter, around⟩ := trim_eq_iff.mp (rfl : trim f = _)
  refine trim_eq_iff.mpr ⟨head, last, front ++ before, after ++ tail, ?_, ?_, ?_⟩
  · intro c hc
    rcases List.mem_append.mp hc with hc | hc
    · exact hfront c hc
    · exact hbefore c hc
  · intro c hc
    rcases List.mem_append.mp hc with hc | hc
    · exact hafter c hc
    · exact htail c hc
  · conv_lhs => rw [around]
    simp only [List.append_assoc]

theorem Pads.eq_nil (h : Pads f g) (hg : g = []) : f = [] := by
  obtain ⟨front, tail, -, -, rfl⟩ := h
  simp at hg
  exact hg.2.1

/-- A text that neither starts nor ends with a blank is found behind blanks only if it is found
without them. -/
theorem infix_append_blanks {front : List Char} (hfront : ∀ c ∈ front, isBlank c = true)
    (hne : token ≠ []) (clean : ∀ c ∈ token, isBlank c = false) :
    token <:+: front ++ f ↔ token <:+: f := by
  induction front with
  | nil => rfl
  | cons c rest ih =>
    have blank : isBlank c = true := hfront c (by simp)
    rw [List.cons_append, List.infix_cons_iff, ih fun d hd => hfront d (by simp [hd])]
    refine ⟨fun h => h.resolve_left fun starts => ?_, .inr⟩
    cases token with
    | nil => exact hne rfl
    | cons t ts =>
      obtain ⟨rfl, -⟩ := List.cons_prefix_cons.mp starts
      rw [clean t (by simp)] at blank
      cases blank

theorem Pads.infix_iff (h : Pads f g) (hne : token ≠ [])
    (clean : ∀ c ∈ token, isBlank c = false) : token <:+: g ↔ token <:+: f := by
  obtain ⟨front, tail, hfront, htail, rfl⟩ := h
  -- the blanks behind the text are in front of it when all is read backwards
  have behind : token <:+: f ++ tail ↔ token <:+: f := by
    rw [← List.reverse_infix, List.reverse_append,
      infix_append_blanks (by simpa using htail) (by simpa using hne) (by simpa using clean),
      List.reverse_infix]
  rw [List.append_assoc, infix_append_blanks hfront hne clean, behind]

end

/-! ## Searching in fields -/

/-- A text without a comma at the front of a row is at the front of its first field. -/
theorem prefix_iff_head_splitOn {token row first : List Char} {more : List (List Char)}
    (hrow : row.splitOn ',' = first :: more) (hcomma : ',' ∉ token) :
    token <+: row ↔ token <+: first := by
  induction row generalizing token first more with
  | nil =>
    obtain ⟨rfl, -⟩ : [] = first ∧ [] = more := by simpa using hrow
    rfl
  | cons c rest ih =>
    cases token with
    | nil => simp
    | cons t ts =>
      have ht : ',' ≠ t ∧ ',' ∉ ts := by simpa using hcomma
      rw [List.splitOn_cons_eq_if_modifyHead] at hrow
      by_cases hc : c = ','
      · obtain ⟨rfl, -⟩ : [] = first ∧ _ = more := by simpa [hc] using hrow
        simp [hc, Ne.symm ht.1]
      · cases hs : rest.splitOn ',' with
        | nil => exact absurd hs (List.splitOn_ne_nil ',' rest)
        | cons piece pieces =>
          obtain ⟨rfl, -⟩ : c :: piece = first ∧ pieces = more := by simpa [hc, hs] using hrow
          rw [List.cons_prefix_cons, List.cons_prefix_cons, ih hs ht.2]

/-- A text without a comma that occurs in a row occurs in one of its fields. -/
theorem infix_iff_exists_splitOn {token row : List Char} (hcomma : ',' ∉ token) :
    token <:+: row ↔ ∃ f ∈ row.splitOn ',', token <:+: f := by
  induction row with
  | nil => simp
  | cons c rest ih =>
    have front := fun first more h =>
      @prefix_iff_head_splitOn token (c :: rest) first more h hcomma
    rw [List.splitOn_cons_eq_if_modifyHead] at front ⊢
    rw [List.infix_cons_iff, ih]
    by_cases hc : c = ','
    · simp only [hc, beq_self_eq_true, if_true] at front ⊢
      rw [front [] _ rfl]
      simp
    · cases hs : rest.splitOn ',' with
      | nil => exact absurd hs (List.splitOn_ne_nil ',' rest)
      | cons piece pieces =>
        simp only [hc, beq_iff_eq, if_false, hs, List.modifyHead_cons] at front ⊢
        rw [front _ _ rfl]
        simp [List.infix_cons_iff, or_assoc]

end Fields

/-! ## Rows with blanks -/

/-- The fields of the second row are those of the first, with blanks around them. -/
def PadsRow (row padded : List Char) : Prop :=
  List.Forall₂ Fields.Pads (row.splitOn ',') (padded.splitOn ',')

instance (row padded : List Char) : Decidable (PadsRow row padded) :=
  inferInstanceAs (Decidable (List.Forall₂ _ _ _))

/-- The fields from the third on. -/
def laterFields (row : List Char) : List (List Char) := (row.splitOn ',').drop 2

/-- No field from the third on has any character. -/
def IsShort (row : List Char) : Prop := ∀ f ∈ laterFields row, f = []

/-- The fields from the third on have no character but blanks. -/
def IsHollow (row : List Char) : Prop := ∀ f ∈ laterFields row, ∀ c ∈ f, Fields.isBlank c = true

instance (row : List Char) : Decidable (IsShort row) := List.decidableBAll _ _

instance (row : List Char) : Decidable (NamesColumns row) := decidable_of_iff _ Grant.isHeader_iff

section

variable {row padded : List Char}

theorem PadsRow.isShort (h : PadsRow row padded) (short : IsShort padded) : IsShort row := by
  intro f hf
  obtain ⟨g, hg, pads⟩ := exists_of_forall₂_left (List.forall₂_drop 2 h) hf
  exact pads.eq_nil (short g hg)

theorem PadsRow.isHollow (h : PadsRow row padded) (short : IsShort row) : IsHollow padded := by
  intro g hg c hc
  obtain ⟨f, hf, front, tail, hfront, htail, rfl⟩ :=
    exists_of_forall₂_right (List.forall₂_drop 2 h) hg
  rw [short f hf, List.append_nil] at hc
  rcases List.mem_append.mp hc with hc | hc
  · exact hfront c hc
  · exact htail c hc

theorem PadsRow.map_trim (h : PadsRow row padded) :
    (padded.splitOn ',').map Fields.trim = (row.splitOn ',').map Fields.trim := by
  rw [← List.forall₂_eq_eq_eq, List.forall₂_map_left_iff, List.forall₂_map_right_iff]
  exact h.flip.imp fun g f pads => Fields.Pads.trim_eq pads

/-- The names of the columns have neither blanks nor commas in them. -/
theorem PadsRow.namesColumns_iff (h : PadsRow row padded) :
    NamesColumns padded ↔ NamesColumns row := by
  have found (token : List Char) (hne : token ≠ []) (hcomma : ',' ∉ token)
      (clean : token.any Fields.isBlank = false) : token <:+: padded ↔ token <:+: row := by
    have clean : ∀ c ∈ token, Fields.isBlank c = false := by simpa using clean
    rw [Fields.infix_iff_exists_splitOn hcomma, Fields.infix_iff_exists_splitOn hcomma]
    constructor
    · rintro ⟨g, hg, occurs⟩
      obtain ⟨f, hf, pads⟩ := exists_of_forall₂_right h hg
      exact ⟨f, hf, (pads.infix_iff hne clean).mp occurs⟩
    · rintro ⟨f, hf, occurs⟩
      obtain ⟨g, hg, pads⟩ := exists_of_forall₂_left h hf
      exact ⟨g, hg, (pads.infix_iff hne clean).mpr occurs⟩
  exact and_congr (found _ (by decide) (by decide) (by decide))
    (found _ (by decide) (by decide) (by decide))

end

namespace Grant

/-- The fields that are dropped from the end of a row are the empty ones, so that at least three are
left if and only if one from the third on has a character. -/
theorem ofFields?_fields (row : List Char) :
    ofFields? (fields row) =
      if IsShort row then none
      else ofFields? (((row.splitOn ',').map Fields.trim).map String.ofList) := by
  rw [fields, Fields.split_eq_splitOn]
  obtain ⟨hlast, tail, htail, heq⟩ := Fields.dropTrailing_eq_iff.mp
    (rfl : Fields.dropTrailing (·.isEmpty) (row.splitOn ',') = _)
  generalize Fields.dropTrailing (·.isEmpty) (row.splitOn ',') = front at hlast heq
  have later : laterFields row = front.drop 2 ++ tail.drop (2 - front.length) := by
    rw [laterFields, heq, List.drop_append]
  by_cases short : IsShort row
  · rw [if_pos short]
    rcases front with _ | ⟨f₀, _ | ⟨f₁, _ | ⟨f₂, more⟩⟩⟩
    · rfl
    · rfl
    · rfl
    · -- the last field that is left would be one of the empty ones
      obtain ⟨f, hf⟩ : ∃ f, (f₂ :: more).getLast? = some f :=
        ⟨_, List.getLast?_eq_some_getLast (by simp)⟩
      have empty : f = [] := by
        apply short
        rw [later]
        exact List.mem_append_left _ (List.mem_of_getLast? hf)
      have kept := hlast f (by simpa using hf)
      simp [empty] at kept
  · rw [if_neg short, heq]
    obtain ⟨f, hf, hne⟩ : ∃ f ∈ laterFields row, f ≠ [] := by simpa [IsShort] using short
    rw [later] at hf
    rcases List.mem_append.mp hf with hf | hf
    · rcases front with _ | ⟨f₀, _ | ⟨f₁, _ | ⟨f₂, more⟩⟩⟩
      · simp at hf
      · simp at hf
      · simp at hf
      · rfl
    · have empty := htail f (List.mem_of_mem_drop hf)
      simp [hne] at empty

theorem ofRow?_eq (row : String) (i : Nat) :
    ofRow? row i =
      if (i = 0 ∧ NamesColumns row.toList) ∨ IsShort row.toList then none
      else ofFields? (((row.toList.splitOn ',').map Fields.trim).map String.ofList) := by
  simp only [ofRow?, isHeader_iff, ofFields?_fields]
  by_cases header : i = 0 ∧ NamesColumns row.toList
  · rw [if_pos header, if_pos (.inl header)]
  · simp only [header, if_false, false_or]

/-- A row that is not the header contributes if one of its fields from the third on is not empty. -/
theorem exists_ofRow?_iff {row : String} {i : Nat} :
    (∃ g, ofRow? row i = some g) ↔
      ¬ (i = 0 ∧ NamesColumns row.toList) ∧ ¬ IsShort row.toList := by
  rw [ofRow?_eq, ← not_or]
  constructor
  · rintro ⟨g, hg⟩ short
    rw [if_pos short] at hg
    cases hg
  · intro long
    rw [if_neg long]
    obtain ⟨f, hf, -⟩ : ∃ f ∈ laterFields row.toList, f ≠ [] := by
      simpa [IsShort] using (not_or.mp long).2
    rw [laterFields] at hf
    generalize row.toList.splitOn ',' = pieces at hf
    rcases pieces with _ | ⟨f₀, _ | ⟨f₁, _ | ⟨f₂, more⟩⟩⟩
    · simp at hf
    · simp at hf
    · simp at hf
    · exact ⟨_, rfl⟩

/-- A row whose fields from the third on are blank has no name for its permission. -/
theorem permission_of_isHollow {row : String} {i : Nat} {g : Grant} (hollow : IsHollow row.toList)
    (h : ofRow? row i = some g) : g.permission = "" := by
  rw [ofRow?_eq, Option.ite_none_left_eq_some] at h
  obtain ⟨-, h⟩ := h
  rw [IsHollow, laterFields] at hollow
  generalize row.toList.splitOn ',' = pieces at hollow h
  rcases pieces with _ | ⟨f₀, _ | ⟨f₁, _ | ⟨f₂, more⟩⟩⟩
  · cases h
  · cases h
  · cases h
  · obtain rfl := Option.some.inj h
    have pads : Fields.Pads [] f₂ := ⟨f₂, [], hollow f₂ (by simp), by simp, by simp⟩
    show String.ofList (Fields.trim f₂) = ""
    rw [pads.trim_eq]
    rfl

theorem ofRow?_of_padsRow {row row' : String} {i : Nat} (h : PadsRow row.toList row'.toList)
    (still : ¬ (i = 0 ∧ NamesColumns row.toList) → IsShort row.toList → IsShort row'.toList) :
    ofRow? row' i = ofRow? row i := by
  have silent : (i = 0 ∧ NamesColumns row'.toList) ∨ IsShort row'.toList ↔
      (i = 0 ∧ NamesColumns row.toList) ∨ IsShort row.toList := by
    rw [h.namesColumns_iff]
    by_cases header : i = 0 ∧ NamesColumns row.toList
    · simp [header]
    · simp only [header, false_or]
      exact ⟨h.isShort, still header⟩
  simp only [ofRow?_eq, silent, h.map_trim]

end Grant

namespace PermissionIndex

/-- Blanks make the row at a position contribute: all its fields from the third on are empty, and
one of them gets blanks. -/
def Wakes (rows padded : List String) (i : Nat) : Prop :=
  ∃ row row', rows[i]? = some row ∧ padded[i]? = some row' ∧
    ¬ (i = 0 ∧ NamesColumns row.toList) ∧ IsShort row.toList ∧ ¬ IsShort row'.toList

section

variable {rows padded : List String}

theorem contributes_iff {i : Nat} {permission api : String} :
    Contributes rows i permission api ↔
      ∃ row, rows[i]? = some row ∧ Grant.ofRow? row i = some ⟨permission, api⟩ := by
  simp only [Contributes, Grant.ofRow?_eq_some_iff]

/-- The row at a position contributes nothing if it is the header, or short. -/
theorem forall_not_contributes_iff {i : Nat} {row : String} (hrow : rows[i]? = some row) :
    (∀ permission api, ¬ Contributes rows i permission api) ↔
      (i = 0 ∧ NamesColumns row.toList) ∨ IsShort row.toList := by
  rw [← not_iff_not, not_or, ← Grant.exists_ofRow?_iff]
  simp only [not_forall, not_not, contributes_iff, hrow, Option.some.injEq, exists_eq_left']
  constructor
  · rintro ⟨permission, api, hg⟩
    exact ⟨_, hg⟩
  · rintro ⟨g, hg⟩
    exact ⟨g.permission, g.api, hg⟩

variable (h : List.Forall₂ (fun row row' => PadsRow row.toList row'.toList) rows padded)

include h

/-- Where no row wakes, each row contributes as before. -/
theorem map_ofRow?_of_asleep {i : Nat} (asleep : ¬ Wakes rows padded i) :
    padded[i]?.map (Grant.ofRow? · i) = rows[i]?.map (Grant.ofRow? · i) := by
  cases hrow : rows[i]? with
  | none =>
    have outside : padded.length ≤ i := by
      rw [← h.length_eq]
      exact List.getElem?_eq_none_iff.mp hrow
    rw [List.getElem?_eq_none outside]
  | some row =>
    obtain ⟨row', hrow', pads⟩ := getElem?_of_forall₂ h hrow
    rw [hrow']
    refine congrArg some (Grant.ofRow?_of_padsRow pads fun header short => ?_)
    by_contra long
    exact asleep ⟨row, row', hrow, hrow', header, short, long⟩

theorem rowGrants_of_asleep (asleep : ∀ i, ¬ Wakes rows padded i) :
    rowGrants padded = rowGrants rows := by
  have listed (rows : List String) : rowGrants rows =
      (rows.zipIdx.map fun r => Grant.ofRow? r.1 r.2).filterMap id := by
    rw [List.filterMap_map]
    rfl
  have same : (padded.zipIdx.map fun r => Grant.ofRow? r.1 r.2) =
      rows.zipIdx.map fun r => Grant.ofRow? r.1 r.2 := by
    apply List.ext_getElem?
    intro i
    have row := map_ofRow?_of_asleep h (asleep i)
    simpa [List.getElem?_zipIdx, Function.comp_def] using row
  rw [listed, listed, same]

/-- A row that wakes had nothing to contribute, and then has a permission without a name. -/
theorem contributes_of_wakes {i : Nat} (wakes : Wakes rows padded i) :
    (∀ permission api, ¬ Contributes rows i permission api) ∧
      ∃ api, Contributes padded i "" api := by
  obtain ⟨row, row', hrow, hrow', header, short, long⟩ := wakes
  obtain ⟨_, found, pads⟩ := getElem?_of_forall₂ h hrow
  obtain rfl := Option.some.inj (hrow'.symm.trans found)
  refine ⟨(forall_not_contributes_iff hrow).mpr (.inr short), ?_⟩
  have header' : ¬ (i = 0 ∧ NamesColumns row'.toList) := by rwa [pads.namesColumns_iff]
  obtain ⟨g, hg⟩ := Grant.exists_ofRow?_iff.mpr ⟨header', long⟩
  have nameless := Grant.permission_of_isHollow (pads.isHollow short) hg
  exact ⟨g.api, contributes_iff.mpr ⟨row', hrow', hg.trans (by rw [← nameless])⟩⟩

/-- **Padding**: blanks around the fields of a table change its index only through rows that wake. A
row that wakes contributes nothing before, and puts its call under the permission without a name
afterwards. A row contributes nothing only if it is the header or its fields from the third on are
empty; where these are blank and not all empty, its permission has no name. -/
theorem ofRows_padding_exact :
    ((∀ i, ¬ Wakes rows padded i) → ofRows padded = ofRows rows) ∧
      (∀ i, Wakes rows padded i →
        (∀ permission api, ¬ Contributes rows i permission api) ∧
          ∃ api, Contributes padded i "" api ∧ api ∈ (ofRows padded).apis "") ∧
      ∀ i row, rows[i]? = some row →
        ((∀ permission api, ¬ Contributes rows i permission api) ↔
          (i = 0 ∧ NamesColumns row.toList) ∨ IsShort row.toList) ∧
        (IsHollow row.toList →
          ∀ permission api, Contributes rows i permission api → permission = "") := by
  refine ⟨fun asleep => ?_, fun i wakes => ?_, fun i row hrow => ⟨?_, ?_⟩⟩
  · have same := rowGrants_of_asleep h asleep
    rw [rowGrants, rowGrants] at same
    simp only [ofRows, same]
  · obtain ⟨silent, api, hapi⟩ := contributes_of_wakes h wakes
    exact ⟨silent, api, hapi, mem_apis_iff.mpr (mem_grants_iff.mpr ⟨i, hapi⟩)⟩
  · exact forall_not_contributes_iff hrow
  · intro hollow permission api given
    obtain ⟨_, found, hg⟩ := contributes_iff.mp given
    obtain rfl := Option.some.inj (hrow.symm.trans found)
    exact Grant.permission_of_isHollow hollow hg

end

/-! ## A table with blanks -/

/-- A header, a row with two empty fields behind the permission, and a row without a permission. -/
def plainTable : List String := ["CallerClass,CallerMethod,Permission", "a/B,m,P,,", "c/D,n,"]

/-- The table with blanks around its fields, and a text behind the comma at its end. -/
def paddedTable (last : String) : List String :=
  [" CallerClass ,CallerMethod, Permission", "a/B , m,  P , ,", "c/D,n ," ++ last]

/-- Blanks leave the index of the table as it is, until one comes behind the last comma. -/
theorem paddedTable_indexed :
    ofRows (paddedTable "") = ofRows plainTable ∧ (ofRows plainTable).grants = [⟨"P", "a.B.m"⟩] ∧
      ∃ api, Contributes (paddedTable " ") 2 "" api := by
  have pads : List.Forall₂ (fun row row' => PadsRow row.toList row'.toList) plainTable
      (paddedTable "") := by decide
  have pads' : List.Forall₂ (fun row row' => PadsRow row.toList row'.toList) plainTable
      (paddedTable " ") := by decide
  have asleep : ∀ i, ¬ Wakes plainTable (paddedTable "") i := by
    rintro i ⟨row, row', hrow, hrow', header, short, long⟩
    rcases i with _ | _ | _ | i
    · cases hrow
      exact header ⟨rfl, by decide⟩
    · cases hrow
      exact absurd short (by decide)
    · cases hrow'
      exact long (by decide)
    · cases hrow
  have wakes : Wakes plainTable (paddedTable " ") 2 :=
    ⟨_, _, rfl, rfl, by simp, by decide, by decide⟩
  obtain ⟨-, api, given, -⟩ := (ofRows_padding_exact pads').2.1 2 wakes
  exact ⟨(ofRows_padding_exact pads).1 asleep, by decide +kernel, api, given⟩

/-- A blank behind the last comma makes a permission out of nothing. -/
theorem blank_makes_permission :
    List.Forall₂ (fun row row' => PadsRow row.toList row'.toList) ["a/B,m,"] ["a/B,m, "] ∧
      (ofRows ["a/B,m,"]).permissions = [] ∧ (ofRows ["a/B,m, "]).permissions = [""] ∧
      (ofRows ["a/B,m,"]).isSensitive "a.B.m" = false ∧
      (ofRows ["a/B,m, "]).isSensitive "a.B.m" = true := by
  decide +kernel

end PermissionIndex

end PermissionAudit
