import PermissionAudit.Proofs.Sequence.Checked
import PermissionAudit.Proofs.Text.Mutf8

/-!
Modified UTF-8 as groups of bytes. A group is a byte below `0x80` other than zero,
or a lead byte with one or two continuation bytes, and codes one unit; overlong
forms are groups too. Bytes are read if and only if they are groups one after
another, and then as what the units of the groups spell.
-/

namespace PermissionAudit.Mutf8

/-- A byte that continues a group. -/
def Continues (b : UInt8) : Prop := 0x80 ≤ b.toNat ∧ b.toNat ≤ 0xBF

/-- Bytes that code one unit. -/
inductive Group where
  | one (a : UInt8) (ha : 0x01 ≤ a.toNat ∧ a.toNat ≤ 0x7F)
  | two (a b : UInt8) (ha : 0xC0 ≤ a.toNat ∧ a.toNat ≤ 0xDF) (hb : Continues b)
  | three (a b c : UInt8) (ha : 0xE0 ≤ a.toNat ∧ a.toNat ≤ 0xEF) (hb : Continues b)
      (hc : Continues c)

namespace Group

def bytes : Group → Bytes
  | one a _ => [a]
  | two a b _ _ => [a, b]
  | three a b c _ _ _ => [a, b, c]

/-- The number that the group writes, six bits in each continuation byte. -/
def number : Group → Nat
  | one a _ => a.toNat
  | two a b _ _ => (a.toNat - 0xC0) * 64 + (b.toNat - 0x80)
  | three a b c _ _ _ => (a.toNat - 0xE0) * 4096 + (b.toNat - 0x80) * 64 + (c.toNat - 0x80)

def unit (g : Group) : UInt16 := UInt16.ofNat g.number

theorem number_two {a b : UInt8} (ha : 0xC0 ≤ a.toNat ∧ a.toNat ≤ 0xDF) (hb : Continues b) :
    (two a b ha hb).number = (a.toNat - 0xC0) * 64 + (b.toNat - 0x80) := rfl

theorem number_three {a b c : UInt8} (ha : 0xE0 ≤ a.toNat ∧ a.toNat ≤ 0xEF) (hb : Continues b)
    (hc : Continues c) : (three a b c ha hb hc).number =
      (a.toNat - 0xE0) * 4096 + (b.toNat - 0x80) * 64 + (c.toNat - 0x80) := rfl

end Group

/-- The bytes are the groups one after another. -/
def IsGrouped (b : Bytes) (groups : List Group) : Prop := groups.flatMap Group.bytes = b

/-! ## Reading groups -/

theorem isContinuation_iff {b : UInt8} : isContinuation b = true ↔ Continues b := by
  rw [isContinuation, decide_eq_true_eq, Continues]
  omega

theorem payload_eq {b : UInt8} (h : Continues b) : payload b = b.toNat - 0x80 := by
  obtain ⟨low, high⟩ := h
  rw [payload]
  omega

/-- A group is read as its unit, whatever follows. -/
theorem decodeUnits_bytes_append (g : Group) (rest : Bytes) :
    decodeUnits (g.bytes ++ rest) = (decodeUnits rest).map (g.unit :: ·) := by
  cases g with
  | one a ha => exact decodeUnits_one (by omega) (by omega) rest
  | two a b ha hb =>
    have number : a.toNat % 32 * 64 + payload b = (Group.two a b ha hb).number := by
      rw [payload_eq hb, Group.number_two]
      omega
    rw [Group.unit, ← number]
    exact decodeUnits_two (by omega) (isContinuation_iff.mpr hb) rest
  | three a b c ha hb hc =>
    have number : a.toNat % 16 * 4096 + payload b * 64 + payload c =
        (Group.three a b c ha hb hc).number := by
      rw [payload_eq hb, payload_eq hc, Group.number_three]
      omega
    rw [Group.unit, ← number]
    exact decodeUnits_three (by omega) (isContinuation_iff.mpr hb) (isContinuation_iff.mpr hc) rest

theorem decodeUnits_of_isGrouped {b : Bytes} {groups : List Group} (h : IsGrouped b groups) :
    decodeUnits b = .ok (groups.map Group.unit) := by
  subst h
  induction groups with
  | nil => rfl
  | cons g groups ih =>
    rw [List.flatMap_cons, decodeUnits_bytes_append, ih]
    rfl

/-- One more group in front. -/
theorem exists_isGrouped_cons (g : Group) {rest : Bytes} {u : UInt16} {units : List UInt16}
    (ih : ∀ {later}, decodeUnits rest = .ok later → ∃ groups, IsGrouped rest groups)
    (h : (decodeUnits rest).map (u :: ·) = .ok units) :
    ∃ groups, IsGrouped (g.bytes ++ rest) groups := by
  obtain ⟨later, hlater, -⟩ := map_eq_ok_iff.mp h
  obtain ⟨groups, rfl⟩ := ih hlater
  exact ⟨g :: groups, List.flatMap_cons⟩

theorem exists_isGrouped {b : Bytes} {units : List UInt16} (h : decodeUnits b = .ok units) :
    ∃ groups, IsGrouped b groups := by
  -- the decoder goes on behind a group, and fails in all other cases
  fun_induction decodeUnits b generalizing units
  case case1 => exact ⟨[], rfl⟩
  case case3 a rest h0 h1 ih => exact exists_isGrouped_cons (.one a (by omega)) ih h
  case case5 a h0 h1 h2 b rest hb ih =>
    exact exists_isGrouped_cons (.two a b (by omega) (isContinuation_iff.mp hb)) ih h
  case case9 a h0 h1 h2 h3 b hb c rest hc ih =>
    exact exists_isGrouped_cons
      (.three a b c (by omega) (isContinuation_iff.mp hb) (isContinuation_iff.mp hc)) ih h
  all_goals cases h

/-- Bytes are read as the text that the units of their groups spell. -/
theorem decode_eq_ok_iff {b : Bytes} {s : String} :
    decode b = .ok s ↔
      ∃ groups, IsGrouped b groups ∧ Utf16.Spells (groups.map Group.unit) s.toList := by
  rw [decode, map_eq_ok_iff]
  constructor
  · intro h
    obtain ⟨units, hunits, rfl⟩ := h
    obtain ⟨groups, grouped⟩ := exists_isGrouped hunits
    obtain rfl := Except.ok.inj (hunits.symm.trans (decodeUnits_of_isGrouped grouped))
    refine ⟨groups, grouped, ?_⟩
    rw [String.toList_ofList]
    exact Utf16.spells_decode _
  · intro h
    obtain ⟨groups, grouped, spelled⟩ := h
    refine ⟨_, decodeUnits_of_isGrouped grouped, ?_⟩
    rw [Utf16.decode_eq_iff.mpr spelled, String.ofList_toList]

/-- Bytes that are not grouped are refused, and no others. -/
theorem decode_eq_error_iff {b : Bytes} :
    (∃ fault, decode b = .error fault) ↔ ¬ ∃ groups, IsGrouped b groups := by
  constructor
  · intro h grouped
    obtain ⟨fault, hfault⟩ := h
    obtain ⟨groups, grouped⟩ := grouped
    rw [decode, decodeUnits_of_isGrouped grouped] at hfault
    cases hfault
  · intro h
    cases hd : decode b with
    | error fault => exact ⟨fault, rfl⟩
    | ok s =>
      obtain ⟨groups, grouped, -⟩ := decode_eq_ok_iff.mp hd
      exact absurd ⟨groups, grouped⟩ h

/-! ## Coded texts -/

theorem continues_ofNat (n : Nat) : Continues (UInt8.ofNat (0x80 + n % 64)) := by
  rw [Continues, Utf8.toNat_ofNat (by omega)]
  omega

/-- The bytes of a unit are a group. -/
theorem exists_group_of_unit (u : UInt16) : ∃ g : Group, g.bytes = encodeUnit u ∧ g.unit = u := by
  have size : u.toNat < 0x10000 := u.toNat_lt
  have back {g : Group} (h : g.number = u.toNat) : g.unit = u := by
    rw [Group.unit, h, UInt16.ofNat_toNat]
  unfold encodeUnit
  dsimp only
  by_cases h0 : u.toNat = 0
  · exact ⟨.two 0xC0 0x80 (by decide) ⟨by decide, by decide⟩, by rw [if_pos h0]; rfl, back h0.symm⟩
  by_cases h1 : u.toNat < 0x80
  · have lead : (UInt8.ofNat u.toNat).toNat = u.toNat := Utf8.toNat_ofNat (by omega)
    refine ⟨.one (UInt8.ofNat u.toNat) (by omega), ?_, back lead⟩
    rw [if_neg h0, if_pos h1]
    rfl
  by_cases h2 : u.toNat < 0x800
  · have lead : (UInt8.ofNat (0xC0 + u.toNat / 64)).toNat = 0xC0 + u.toNat / 64 :=
      Utf8.toNat_ofNat (by omega)
    have low : (UInt8.ofNat (0x80 + u.toNat % 64)).toNat = 0x80 + u.toNat % 64 :=
      Utf8.toNat_ofNat (by omega)
    refine ⟨.two _ _ (by rw [lead]; omega) (continues_ofNat u.toNat), ?_, back ?_⟩
    · rw [if_neg h0, if_neg h1, if_pos h2]
      rfl
    · rw [Group.number_two, lead, low]
      omega
  · have lead : (UInt8.ofNat (0xE0 + u.toNat / 4096)).toNat = 0xE0 + u.toNat / 4096 :=
      Utf8.toNat_ofNat (by omega)
    have middle : (UInt8.ofNat (0x80 + u.toNat / 64 % 64)).toNat = 0x80 + u.toNat / 64 % 64 :=
      Utf8.toNat_ofNat (by omega)
    have low : (UInt8.ofNat (0x80 + u.toNat % 64)).toNat = 0x80 + u.toNat % 64 :=
      Utf8.toNat_ofNat (by omega)
    refine ⟨.three _ _ _ (by rw [lead]; omega) (continues_ofNat (u.toNat / 64))
      (continues_ofNat u.toNat), ?_, back ?_⟩
    · rw [if_neg h0, if_neg h1, if_neg h2]
      rfl
    · rw [Group.number_three, lead, middle, low]
      omega

theorem exists_groups_of_units (units : List UInt16) :
    ∃ groups, IsGrouped (units.flatMap encodeUnit) groups ∧ groups.map Group.unit = units := by
  induction units with
  | nil => exact ⟨[], rfl, rfl⟩
  | cons u units ih =>
    obtain ⟨groups, grouped, back⟩ := ih
    obtain ⟨g, hbytes, hunit⟩ := exists_group_of_unit u
    refine ⟨g :: groups, ?_, ?_⟩
    · rw [IsGrouped, List.flatMap_cons, List.flatMap_cons, hbytes, grouped]
    · rw [List.map_cons, hunit, back]

/-- A coded text is read back. -/
theorem decode_encode (s : String) : decode (encode s) = .ok s := by
  obtain ⟨groups, grouped, units⟩ := exists_groups_of_units (Utf16.encode s.toList)
  refine decode_eq_ok_iff.mpr ⟨groups, grouped, ?_⟩
  rw [units]
  exact Utf16.decode_eq_iff.mp (Utf16.decode_encode s.toList)

/-! ## UTF-8 with four bytes -/

/-- The lead byte of four is not that of a group. -/
theorem decodeUnits_of_four {c : Char} (h : 0xFFFF < c.toNat) (rest : Bytes) :
    ∃ byte, decodeUnits (String.utf8EncodeChar c ++ rest) = .error (.leadByte byte) := by
  have valid := Utf16.char_valid c
  change 0xFFFF < c.val.toNat at h
  change c.val.toNat < _ ∨ _ ∧ c.val.toNat < _ at valid
  unfold String.utf8EncodeChar
  generalize c.val.toNat = v at h valid ⊢
  dsimp only
  have lead : (UInt8.ofNat (v / 262144 % 8 + 240)).toNat = v / 262144 % 8 + 240 :=
    Utf8.toNat_ofNat (by omega)
  refine ⟨UInt8.ofNat (v / 262144 % 8 + 240), ?_⟩
  rw [if_neg (by omega), if_neg (by omega), if_neg (by omega), List.cons_append,
    decodeUnits.eq_def]
  simp only [lead]
  rw [if_neg (by omega), if_neg (by omega), if_neg (by omega), if_neg (by omega)]

theorem decodeUnits_utf8_of_large {cs : List Char} (zero : '\x00' ∉ cs)
    (large : ∃ c ∈ cs, 0xFFFF < c.toNat) :
    ∃ byte, decodeUnits (cs.flatMap String.utf8EncodeChar) = .error (.leadByte byte) := by
  induction cs with
  | nil => simp at large
  | cons c cs ih =>
    rw [List.flatMap_cons]
    by_cases hc : 0xFFFF < c.toNat
    · exact decodeUnits_of_four hc _
    · have later : ∃ d ∈ cs, 0xFFFF < d.toNat := by
        obtain ⟨d, hd, hlarge⟩ := large
        rcases List.mem_cons.mp hd with rfl | hd
        · exact absurd hlarge hc
        · exact ⟨d, hd, hlarge⟩
      obtain ⟨byte, hbyte⟩ := ih (fun h => zero (List.mem_cons_of_mem _ h)) later
      have head : c ≠ '\x00' := fun h => zero (by simp [h])
      refine ⟨byte, ?_⟩
      rw [decodeUnits_utf8EncodeChar head (by omega), hbyte]
      rfl

/-- **Modified UTF-8 is read exactly.** A coded text is read back. Bytes are read if and only if
they are groups, as the text that the units of the groups spell, with `U+FFFD` for each surrogate
without its partner. UTF-8 without zeros is read as such up to `U+FFFF`, and refused beyond. -/
theorem decode_exact :
    (∀ s, decode (encode s) = .ok s) ∧
      (∀ b s, decode b = .ok s ↔
        ∃ groups, IsGrouped b groups ∧ Utf16.Spells (groups.map Group.unit) s.toList) ∧
      (∀ b, (∃ s, decode b = .ok s) ↔ ∃ groups, IsGrouped b groups) ∧
      (∀ b, (∃ fault, decode b = .error fault) ↔ ¬ ∃ groups, IsGrouped b groups) ∧
      ∀ s : String, '\x00' ∉ s.toList →
        ((∀ c ∈ s.toList, c.toNat ≤ 0xFFFF) → decode (Utf8.encode s) = .ok s) ∧
        ((∃ c ∈ s.toList, 0xFFFF < c.toNat) →
          ∃ byte, decode (Utf8.encode s) = .error (.leadByte byte)) := by
  refine ⟨decode_encode, fun b s => decode_eq_ok_iff, fun b => ?_, fun b => decode_eq_error_iff,
    fun s zero => ⟨fun small => ?_, fun large => ?_⟩⟩
  · constructor
    · intro h
      obtain ⟨s, hs⟩ := h
      obtain ⟨groups, grouped, -⟩ := decode_eq_ok_iff.mp hs
      exact ⟨groups, grouped⟩
    · intro h
      obtain ⟨groups, grouped⟩ := h
      rw [decode, decodeUnits_of_isGrouped grouped]
      exact ⟨_, rfl⟩
  · exact decode_utf8 fun c hc => ⟨fun h => zero (h ▸ hc), small c hc⟩
  · obtain ⟨byte, hbyte⟩ := decodeUnits_utf8_of_large zero large
    rw [decode, Utf8.encode, hbyte]
    exact ⟨byte, rfl⟩

/-- A character that takes four bytes in UTF-8 is read from its two surrogates only. -/
theorem decode_four_bytes :
    decode (encode "é\x00😀") = .ok "é\x00😀" ∧
      ('\x00' ∉ "é".toList ∧ decode (Utf8.encode "é") = .ok "é") ∧
      '\x00' ∉ "é😀".toList ∧ ∃ byte, decode (Utf8.encode "é😀") = .error (.leadByte byte) := by
  obtain ⟨coded, -, -, -, utf8⟩ := decode_exact
  have small : ∀ c ∈ "é".toList, c.toNat ≤ 0xFFFF := by
    intro c hc
    obtain rfl : c = 'é' := by simpa using hc
    decide
  have accent : '\x00' ∉ "é".toList := by decide
  have emoji : '\x00' ∉ "é😀".toList := by decide
  exact ⟨coded _, ⟨accent, (utf8 _ accent).1 small⟩, emoji,
    (utf8 _ emoji).2 ⟨'😀', by decide, by decide⟩⟩

end PermissionAudit.Mutf8
