import Mathlib.Data.List.Chain
import PermissionAudit.Text.Utf16

/-!
What 16-bit units spell. Units are taken apart into symbols: the units of a
character, or a surrogate that stands for itself because it has no partner. Every
list of units has symbols, and decoding shows each of them, so that the units of a
text are read back as the text.
-/

namespace PermissionAudit.Utf16

/-- Half of a pair, high or low. -/
def isSurrogate (u : UInt16) : Bool := isHigh u || isLow u

/-- What units are put together from. -/
inductive Symbol where
  | char (c : Char)
  /-- A surrogate without its partner. -/
  | surrogate (unit : UInt16) (h : isSurrogate unit = true)

namespace Symbol

def units : Symbol → List UInt16
  | char c => encodeChar c
  | surrogate unit _ => [unit]

/-- The character that is shown; nothing but its place is left of a surrogate. -/
def shown : Symbol → Char
  | char c => c
  | surrogate _ _ => replacement

/-- The two are not the halves of a pair. -/
def Apart : Symbol → Symbol → Prop
  | surrogate u _, surrogate v _ => isHigh u = false ∨ isLow v = false
  | _, _ => True

end Symbol

/-- The units spell the characters: they are the units of symbols that show them, and surrogates
that have their partner next to them are not taken apart. -/
def Spells (units : List UInt16) (cs : List Char) : Prop :=
  ∃ symbols : List Symbol, symbols.IsChain Symbol.Apart ∧
    symbols.flatMap Symbol.units = units ∧ symbols.map Symbol.shown = cs

/-! ## Units of a character -/

theorem isHigh_iff {u : UInt16} : isHigh u = true ↔ 0xD800 ≤ u.toNat ∧ u.toNat < 0xDC00 := by
  simp [isHigh]

theorem isLow_iff {u : UInt16} : isLow u = true ↔ 0xDC00 ≤ u.toNat ∧ u.toNat < 0xE000 := by
  simp [isLow]

theorem isHigh_eq_false_iff {u : UInt16} :
    isHigh u = false ↔ u.toNat < 0xD800 ∨ 0xDC00 ≤ u.toNat := by
  rw [← Bool.not_eq_true, isHigh_iff]
  omega

theorem isLow_eq_false_iff {u : UInt16} :
    isLow u = false ↔ u.toNat < 0xDC00 ∨ 0xE000 ≤ u.toNat := by
  rw [← Bool.not_eq_true, isLow_iff]
  omega

theorem toNat_ofNat {n : Nat} (h : n < 0x10000) : (UInt16.ofNat n).toNat = n := by
  rw [UInt16.toNat_ofNat']
  exact Nat.mod_eq_of_lt h

theorem char_valid (c : Char) : c.toNat < 0xD800 ∨ 0xDFFF < c.toNat ∧ c.toNat < 0x110000 := c.valid

theorem toNat_char_ofNat {n : Nat} (h : n < 0xD800 ∨ 0xDFFF < n ∧ n < 0x110000) :
    (Char.ofNat n).toNat = n := by
  rw [Char.ofNat, dif_pos h]
  rfl

theorem encodeChar_of_lt {c : Char} (h : c.toNat < 0x10000) :
    encodeChar c = [UInt16.ofNat c.toNat] := by
  rw [encodeChar, if_pos h]

/-- A character above `U+FFFF` has a high and a low unit, which are read as the character. -/
theorem exists_pair_of_le {c : Char} (h : 0x10000 ≤ c.toNat) :
    ∃ u v, encodeChar c = [u, v] ∧ isHigh u = true ∧ isLow v = true ∧ ofPair u v = c := by
  have hc := char_valid c
  have high : (UInt16.ofNat (0xD800 + (c.toNat - 0x10000) / 1024)).toNat =
      0xD800 + (c.toNat - 0x10000) / 1024 := toNat_ofNat (by omega)
  have low : (UInt16.ofNat (0xDC00 + (c.toNat - 0x10000) % 1024)).toNat =
      0xDC00 + (c.toNat - 0x10000) % 1024 := toNat_ofNat (by omega)
  refine ⟨_, _, by rw [encodeChar, if_neg (by omega)], ?_, ?_, ?_⟩
  · rw [isHigh_iff, high]
    omega
  · rw [isLow_iff, low]
    omega
  · rw [ofPair, high, low]
    have number : 0x10000 + 1024 * (0xD800 + (c.toNat - 0x10000) / 1024 - 0xD800) +
        (0xDC00 + (c.toNat - 0x10000) % 1024 - 0xDC00) = c.toNat := by omega
    rw [number, Char.ofNat_toNat]

/-- A pair is the units of the character it is read as. -/
theorem encodeChar_ofPair {u v : UInt16} (hu : isHigh u = true) (hv : isLow v = true) :
    encodeChar (ofPair u v) = [u, v] := by
  rw [isHigh_iff] at hu
  rw [isLow_iff] at hv
  have number : (ofPair u v).toNat =
      0x10000 + 1024 * (u.toNat - 0xD800) + (v.toNat - 0xDC00) := toNat_char_ofNat (by omega)
  have high : 0xD800 + (0x10000 + 1024 * (u.toNat - 0xD800) + (v.toNat - 0xDC00) - 0x10000) / 1024 =
      u.toNat := by omega
  have low : 0xDC00 + (0x10000 + 1024 * (u.toNat - 0xD800) + (v.toNat - 0xDC00) - 0x10000) % 1024 =
      v.toNat := by omega
  rw [encodeChar, number, if_neg (by omega), high, low, UInt16.ofNat_toNat, UInt16.ofNat_toNat]

theorem encodeChar_ofNat {u : UInt16} (hu : isHigh u = false) (hv : isLow u = false) :
    encodeChar (Char.ofNat u.toNat) = [u] := by
  rw [isHigh_eq_false_iff] at hu
  rw [isLow_eq_false_iff] at hv
  have size := u.toNat_lt
  have number : (Char.ofNat u.toNat).toNat = u.toNat := toNat_char_ofNat (by omega)
  rw [encodeChar_of_lt (by omega), number, UInt16.ofNat_toNat]

/-! ## Decoding, symbol by symbol -/

theorem decode_pair {u v : UInt16} (hu : isHigh u = true) (hv : isLow v = true)
    (rest : List UInt16) : decode (u :: v :: rest) = ofPair u v :: decode rest := by
  rw [decode.eq_def]
  simp only [hu, hv, if_true]

/-- The units of a character are read as the character, whatever follows. -/
theorem decode_encodeChar_append (c : Char) (rest : List UInt16) :
    decode (encodeChar c ++ rest) = c :: decode rest := by
  by_cases h : c.toNat < 0x10000
  · have hc := char_valid c
    have unit : (UInt16.ofNat c.toNat).toNat = c.toNat := toNat_ofNat h
    have high : isHigh (UInt16.ofNat c.toNat) = false := by
      rw [isHigh_eq_false_iff, unit]
      omega
    have low : isLow (UInt16.ofNat c.toNat) = false := by
      rw [isLow_eq_false_iff, unit]
      omega
    rw [encodeChar_of_lt h, List.cons_append, List.nil_append, decode.eq_def]
    simp only [high, low, unit, Char.ofNat_toNat, Bool.false_eq_true, if_false]
  · obtain ⟨u, v, units, hu, hv, char⟩ := exists_pair_of_le (Nat.le_of_not_lt h)
    rw [units, List.cons_append, List.cons_append, List.nil_append, decode_pair hu hv, char]

/-- A surrogate is replaced, unless it is high and a low one follows. -/
theorem decode_surrogate {u : UInt16} (hu : isSurrogate u = true) {rest : List UInt16}
    (alone : isHigh u = true → ∀ v ∈ rest.head?, isLow v = false) :
    decode (u :: rest) = replacement :: decode rest := by
  rw [decode.eq_def]
  by_cases high : isHigh u = true
  · cases rest with
    | nil =>
      simp only [high, if_true]
      rfl
    | cons v rest =>
      have other : isLow v = false := alone high v rfl
      simp only [high, other, if_true, Bool.false_eq_true, if_false]
  · have low : isLow u = true := by
      rw [isSurrogate, Bool.or_eq_true] at hu
      exact hu.resolve_left high
    simp only [high, low, if_true, Bool.false_eq_true, if_false]

/-- The units of a character do not start with a low surrogate. -/
theorem isLow_head_encodeChar (c : Char) (rest : List UInt16) :
    ∀ v ∈ (encodeChar c ++ rest).head?, isLow v = false := by
  intro v hv
  have hc := char_valid c
  by_cases h : c.toNat < 0x10000
  · rw [encodeChar_of_lt h, List.cons_append, List.head?_cons, Option.mem_some] at hv
    subst hv
    rw [isLow_eq_false_iff, toNat_ofNat h]
    omega
  · obtain ⟨u, w, units, hu, -, -⟩ := exists_pair_of_le (Nat.le_of_not_lt h)
    rw [units, List.cons_append, List.head?_cons, Option.mem_some] at hv
    subst hv
    rw [isHigh_iff] at hu
    rw [isLow_eq_false_iff]
    omega

/-- A high surrogate that is apart from the next symbol is not followed by a low one. -/
theorem isLow_head_of_isChain {u : UInt16} {hu : isSurrogate u = true} {symbols : List Symbol}
    (chain : (Symbol.surrogate u hu :: symbols).IsChain Symbol.Apart) (high : isHigh u = true) :
    ∀ v ∈ (symbols.flatMap Symbol.units).head?, isLow v = false := by
  cases symbols with
  | nil => simp
  | cons next symbols =>
    rw [List.isChain_cons_cons] at chain
    rw [List.flatMap_cons]
    cases next with
    | char c => exact isLow_head_encodeChar c _
    | surrogate w hw =>
      intro v hv
      obtain rfl : w = v := by simpa [Symbol.units] using hv
      obtain h | h := chain.1
      · rw [high] at h
        cases h
      · exact h

/-- Decoding shows the symbols. -/
theorem decode_flatMap_units {symbols : List Symbol} (chain : symbols.IsChain Symbol.Apart) :
    decode (symbols.flatMap Symbol.units) = symbols.map Symbol.shown := by
  induction symbols with
  | nil => rfl
  | cons symbol symbols ih =>
    have rest := ih chain.tail
    rw [List.flatMap_cons, List.map_cons]
    cases symbol with
    | char c =>
      rw [Symbol.units, decode_encodeChar_append, rest]
      rfl
    | surrogate u hu =>
      rw [Symbol.units, List.cons_append, List.nil_append,
        decode_surrogate hu (isLow_head_of_isChain chain), rest]
      rfl

/-! ## Every list of units -/

theorem Spells.nil : Spells [] [] := ⟨[], .nil, rfl, rfl⟩

theorem Spells.char {units : List UInt16} {cs : List Char} (h : Spells units cs) (c : Char) :
    Spells (encodeChar c ++ units) (c :: cs) := by
  obtain ⟨symbols, chain, rfl, rfl⟩ := h
  refine ⟨.char c :: symbols, ?_, rfl, rfl⟩
  cases symbols with
  | nil => exact .singleton _
  | cons next symbols => exact .cons_cons trivial chain

theorem Spells.surrogate {units : List UInt16} {cs : List Char} (h : Spells units cs) {u : UInt16}
    (hu : isSurrogate u = true) (alone : isHigh u = true → ∀ v ∈ units.head?, isLow v = false) :
    Spells (u :: units) (replacement :: cs) := by
  obtain ⟨symbols, chain, rfl, rfl⟩ := h
  refine ⟨.surrogate u hu :: symbols, ?_, rfl, rfl⟩
  cases symbols with
  | nil => exact .singleton _
  | cons next symbols =>
    refine .cons_cons ?_ chain
    cases next with
    | char c => trivial
    | surrogate v hv =>
      by_cases high : isHigh u = true
      · exact .inr (alone high v (by simp [Symbol.units]))
      · exact .inl (by simpa using high)

theorem spells_decode (units : List UInt16) : Spells units (decode units) := by
  fun_induction decode units with
  | case1 => exact .nil
  | case2 u high => exact Spells.nil.surrogate (by simp [isSurrogate, high]) (by simp)
  | case3 u high v rest low ih =>
    have spelled := ih.char (ofPair u v)
    rw [encodeChar_ofPair high low] at spelled
    exact spelled
  | case4 u high v rest low ih =>
    exact ih.surrogate (by simp [isSurrogate, high]) fun _ => by simpa using low
  | case5 u rest high low ih =>
    exact ih.surrogate (by simp [isSurrogate, low]) (by simp [high])
  | case6 u rest high low ih =>
    have spelled := ih.char (Char.ofNat u.toNat)
    rw [encodeChar_ofNat (by simpa using high) (by simpa using low)] at spelled
    exact spelled

/-- Units spell one text, and it is the one that decoding gives. -/
theorem decode_eq_iff {units : List UInt16} {cs : List Char} :
    decode units = cs ↔ Spells units cs := by
  constructor
  · intro h
    subst h
    exact spells_decode units
  · intro h
    obtain ⟨symbols, chain, rfl, rfl⟩ := h
    exact decode_flatMap_units chain

/-- The units of a text are read back. -/
theorem decode_encode (cs : List Char) : decode (encode cs) = cs := by
  induction cs with
  | nil => rfl
  | cons c rest ih => rw [encode, List.flatMap_cons, decode_encodeChar_append, ← encode, ih]

end PermissionAudit.Utf16
