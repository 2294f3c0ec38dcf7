import PermissionAudit.Dex.File
import PermissionAudit.Proofs.Bytes.ReadBack
import PermissionAudit.Proofs.Sequence.Checked
import PermissionAudit.Proofs.Text.Digits

/-!
Which headers are accepted. A header is a magic with a version, two marks at fixed
positions, and room for all its numbers. The version is read as a decimal number of
three characters, and a plus sign may stand in the place of the leading zero.
-/

namespace PermissionAudit.Dex.Header

open Bytes (u32At)

/-! ## Version digits -/

/-- The character of a byte. -/
def character (x : UInt8) : Char := Char.ofNat x.toNat

theorem toNat_character (x : UInt8) : (character x).toNat = x.toNat := by
  have small := x.toNat_lt
  have valid : x.toNat.isValidChar := .inl (by omega)
  rw [character, Char.ofNat, dif_pos valid]
  rfl

theorem digit_iff {x : UInt8} :
    '0' ≤ character x ∧ character x ≤ '9' ↔ 0x30 ≤ x.toNat ∧ x.toNat ≤ 0x39 := by
  rw [← toNat_character x]
  rfl

theorem eq_iff_toNat {x : UInt8} {n : Nat} (h : n < 256) : x = UInt8.ofNat n ↔ x.toNat = n := by
  rw [← UInt8.toNat_inj, UInt8.toNat_ofNat', Nat.mod_eq_of_lt h]

theorem ofDigitChars_characters (xs : Bytes) (m : Nat) :
    Nat.ofDigitChars 10 (xs.map character) m =
      xs.foldl (fun m x => 10 * m + (x.toNat - 0x30)) m := by
  induction xs generalizing m with
  | nil => rfl
  | cons x rest ih =>
    rw [List.map_cons, Nat.ofDigitChars_cons, ih, toNat_character]
    rfl

/-- Bytes denote a number if there are some, and all are decimal digits. -/
theorem readDecimal_characters {xs : Bytes} {n : Nat} :
    Digits.readDecimal (xs.map character) = some n ↔
      xs ≠ [] ∧ (∀ x ∈ xs, 0x30 ≤ x.toNat ∧ x.toNat ≤ 0x39) ∧
        n = xs.foldl (fun m x => 10 * m + (x.toNat - 0x30)) 0 := by
  rw [Digits.readDecimal_eq_some_iff, ofDigitChars_characters, ne_eq, List.map_eq_nil_iff,
    List.forall_mem_map]
  simp only [digit_iff, ne_eq]

theorem readVersion_plus (rest : Bytes) :
    readVersion (0x2B :: rest) = Digits.readDecimal (rest.map character) := rfl

theorem readVersion_digits {x : UInt8} (h : x ≠ 0x2B) (rest : Bytes) :
    readVersion (x :: rest) = Digits.readDecimal ((x :: rest).map character) := by
  have sign : character x ≠ '+' := by
    intro heq
    have number := congrArg Char.toNat heq
    rw [toNat_character] at number
    exact h (UInt8.toNat_inj.mp number)
  rw [readVersion]
  split
  · rename_i heq
    exact absurd (List.cons.inj heq).1 sign
  · rfl

/-- Three characters denote a number below a hundred if the last two are its digits, behind a zero
or a plus sign. -/
theorem readVersion_eq_some_iff {x y z : UInt8} {n : Nat} (hn : n < 100) :
    readVersion [x, y, z] = some n ↔ (x = 0x30 ∨ x = 0x2B) ∧
      y = UInt8.ofNat (0x30 + n / 10) ∧ z = UInt8.ofNat (0x30 + n % 10) := by
  rw [eq_iff_toNat (by omega), eq_iff_toNat (by omega)]
  by_cases sign : x = 0x2B
  · rw [sign, readVersion_plus, readDecimal_characters]
    simp only [ne_eq, reduceCtorEq, not_false_eq_true, List.mem_cons, List.not_mem_nil, or_false,
      forall_eq_or_imp, forall_eq, List.foldl_cons, List.foldl_nil, or_true, true_and]
    omega
  · have zero : x = 0x30 ↔ x.toNat = 0x30 := eq_iff_toNat (by decide)
    rw [readVersion_digits sign, readDecimal_characters, or_iff_left sign, zero]
    simp only [ne_eq, reduceCtorEq, not_false_eq_true, List.mem_cons, List.not_mem_nil, or_false,
      forall_eq_or_imp, forall_eq, List.foldl_cons, List.foldl_nil, true_and]
    omega

/-! ## Accepted headers -/

/-- The magic of a version: `dex`, a line feed, a lead, two decimal digits, and a zero byte. -/
def magicOf (lead : UInt8) (version : Nat) : Bytes :=
  [0x64, 0x65, 0x78, 0x0A, lead, UInt8.ofNat (0x30 + version / 10),
    UInt8.ofNat (0x30 + version % 10), 0]

/-- The bytes start with a header: a magic of a supported version, the size of a header and a byte
order mark at their positions, and room for the other numbers. -/
structure IsHeader (lead : UInt8) (version mark : Nat) (b : Bytes) : Prop where
  long : 112 ≤ b.length
  supported : 35 ≤ version ∧ version ≤ 41
  magic : b.take 8 = magicOf lead version
  size : u32At b 36 = 0x70
  order : u32At b 40 = mark

/-- The header is read, and the version is supported. -/
def Accepts (b : Bytes) (version : Nat) : Prop :=
  ∃ h, read b = .ok h ∧ h.isSupported = true ∧ h.version = version

section

variable {b : Bytes} {version : Nat}

theorem readMagic_eq_ok_iff : readMagic b = .ok version ↔
    b.take 4 = Header.magic ∧ 7 ≤ b.length ∧ b[7]? = some 0 ∧
      readVersion ((b.drop 4).take 3) = some version := by
  rw [readMagic]
  by_cases tag : b.take 4 = Header.magic
  · by_cases short : b.length < 7
    · simp [tag, short, Nat.not_le.mpr short]
    · by_cases zero : b[7]? = some 0
      · cases hv : readVersion ((b.drop 4).take 3) <;>
          simp [tag, short, zero, hv, Nat.le_of_not_lt short]
      · simp [tag, short, zero]
  · simp [tag]

/-- The version of a magic is one below a hundred exactly if the magic is its own, with a zero or a
plus sign for a lead. -/
theorem readMagic_iff_magicOf (hv : version < 100) :
    readMagic b = .ok version ↔
      b.take 8 = magicOf 0x30 version ∨ b.take 8 = magicOf 0x2B version := by
  rw [readMagic_eq_ok_iff]
  rcases b with _ | ⟨b₀, _ | ⟨b₁, _ | ⟨b₂, _ | ⟨b₃, _ | ⟨b₄, _ | ⟨b₅, _ | ⟨b₆, _ | ⟨b₇, rest⟩⟩⟩⟩⟩⟩⟩⟩
  -- fewer than eight bytes are no magic, and eight are the same on both sides
  iterate 8 · simp [Header.magic, magicOf, readVersion_eq_some_iff hv]
  · simp only [List.take_succ_cons, List.take_zero, List.drop_succ_cons, List.drop_zero,
      List.getElem?_cons_succ, List.getElem?_cons_zero, readVersion_eq_some_iff hv, Header.magic,
      magicOf]
    grind

/-- Behind the magic one check comes after another. -/
theorem read_of_magic (hm : readMagic b = .ok version) :
    read b =
      if b.length < 40 then .error (.malformed .endOfInput)
      else if u32At b 36 ≠ 0x70 then .error (.malformed .verify)
      else if b.length < 44 then .error (.malformed .endOfInput)
      else if u32At b 40 = 0x78563412 then .error .bigEndian
      else if u32At b 40 ≠ 0x12345678 then .error (.endianTag (u32At b 40))
      else if b.length < 112 then .error (.malformed .endOfInput)
      else .ok (ofBytes version b) := by
  rw [read, hm]
  rfl

theorem ite_error_eq_ok_iff {ε α : Type} {c : Prop} [Decidable c] {e : ε} {x : Except ε α} {a : α} :
    (if c then .error e else x) = .ok a ↔ ¬ c ∧ x = .ok a := by
  by_cases hc : c <;> simp [hc]

theorem read_eq_ok_iff {h : Header} : read b = .ok h ↔
    ∃ version, readMagic b = .ok version ∧ 112 ≤ b.length ∧ u32At b 36 = 0x70 ∧
      u32At b 40 = 0x12345678 ∧ h = ofBytes version b := by
  constructor
  · intro hr
    obtain ⟨version, hm, -⟩ := bind_eq_ok_iff.mp hr
    simp only [read_of_magic hm, ite_error_eq_ok_iff, not_not] at hr
    obtain ⟨-, hsize, -, -, horder, long, heq⟩ := hr
    exact ⟨version, hm, Nat.le_of_not_lt long, hsize, horder, (Except.ok.inj heq).symm⟩
  · rintro ⟨version, hm, long, hsize, horder, rfl⟩
    simp only [read_of_magic hm, ite_error_eq_ok_iff, not_not]
    refine ⟨by omega, hsize, by omega, ?_, horder, by omega, trivial⟩
    rw [horder]
    decide

/-- A header does not depend on what is behind it. -/
theorem read_append {h : Header} (hr : read b = .ok h) (tail : Bytes) :
    read (b ++ tail) = .ok h := by
  obtain ⟨version, hm, long, hsize, horder, rfl⟩ := read_eq_ok_iff.mp hr
  have number {i : Nat} (hi : i + 3 < 112) : u32At (b ++ tail) i = u32At b i :=
    Bytes.u32At_append_left tail (by omega)
  refine read_eq_ok_iff.mpr ⟨version, ?_, ?_, ?_, ?_, ?_⟩
  · rw [readMagic_eq_ok_iff] at hm ⊢
    rw [List.take_append_of_le_length (by omega), List.length_append,
      List.getElem?_append_left (by omega), List.drop_append_of_le_length (by omega),
      List.take_append_of_le_length (by rw [List.length_drop]; omega)]
    exact ⟨hm.1, by omega, hm.2.2⟩
  · rw [List.length_append]
    omega
  · rw [number (by decide), hsize]
  · rw [number (by decide), horder]
  · simp (disch := decide) only [ofBytes, extentAt, number]
    rw [List.drop_append_of_le_length (by omega),
      List.take_append_of_le_length (by rw [List.length_drop]; omega)]

theorem read_of_reverse_mark (hm : readMagic b = .ok version) (long : 44 ≤ b.length)
    (hsize : u32At b 36 = 0x70) (horder : u32At b 40 = 0x78563412) :
    read b = .error .bigEndian := by
  rw [read_of_magic hm, if_neg (by omega), if_neg (not_not.mpr hsize), if_neg (by omega),
    if_pos horder]

theorem accepts_iff : Accepts b version ↔
    readMagic b = .ok version ∧ (35 ≤ version ∧ version ≤ 41) ∧ 112 ≤ b.length ∧
      u32At b 36 = 0x70 ∧ u32At b 40 = 0x12345678 := by
  have supported (h : Header) : h.isSupported = true ↔ 35 ≤ h.version ∧ h.version ≤ 41 := by
    rw [isSupported, Bool.and_eq_true, decide_eq_true_eq, decide_eq_true_eq]
  simp only [Accepts, read_eq_ok_iff, supported]
  constructor
  · rintro ⟨h, ⟨number, hm, long, hsize, horder, rfl⟩, hs, rfl⟩
    exact ⟨hm, hs, long, hsize, horder⟩
  · rintro ⟨hm, hs, long, hsize, horder⟩
    exact ⟨_, ⟨version, hm, long, hsize, horder, rfl⟩, hs, rfl⟩

/-- A plus sign stands for the leading zero, and nothing else does. -/
theorem accepts_iff_isHeader : Accepts b version ↔
    IsHeader 0x30 version 0x12345678 b ∨ IsHeader 0x2B version 0x12345678 b := by
  rw [accepts_iff]
  constructor
  · rintro ⟨hm, hs, long, hsize, horder⟩
    rcases (readMagic_iff_magicOf (by omega)).mp hm with hm | hm
    · exact .inl ⟨long, hs, hm, hsize, horder⟩
    · exact .inr ⟨long, hs, hm, hsize, horder⟩
  · rintro (⟨long, hs, hm, hsize, horder⟩ | ⟨long, hs, hm, hsize, horder⟩)
    · exact ⟨(readMagic_iff_magicOf (by omega)).mpr (.inl hm), hs, long, hsize, horder⟩
    · exact ⟨(readMagic_iff_magicOf (by omega)).mpr (.inr hm), hs, long, hsize, horder⟩

theorem IsHeader.lead_eq {lead : UInt8} {mark : Nat} (h : IsHeader lead version mark b) :
    b[4]? = some lead := by
  have fifth : (b.take 8)[4]? = some lead := by rw [h.magic]; rfl
  rwa [List.getElem?_take_of_lt (by decide)] at fifth

end

/-- **The header**: the headers that are accepted are those with a leading zero in the version, and
those with a plus sign in its place. One that differs from the former by a reversed byte order mark
is refused as big-endian. -/
theorem header_grammar_exact (b : Bytes) :
    (∀ version, Accepts b version ↔
      IsHeader 0x30 version 0x12345678 b ∨ IsHeader 0x2B version 0x12345678 b) ∧
    (b[4]? ≠ some 0x2B → ∀ version, Accepts b version ↔ IsHeader 0x30 version 0x12345678 b) ∧
    (∀ version, IsHeader 0x30 version 0x78563412 b →
      read b = .error .bigEndian ∧ (parse b).value = .error .bigEndian) := by
  refine ⟨fun version => accepts_iff_isHeader, fun unsigned version => ?_, fun version h => ?_⟩
  · rw [accepts_iff_isHeader, or_iff_left fun h => unsigned h.lead_eq]
  · have hs := h.supported
    have long := h.long
    have hm := (readMagic_iff_magicOf (by omega)).mpr (.inl h.magic)
    have refused := read_of_reverse_mark hm (by omega) h.size h.order
    refine ⟨refused, ?_⟩
    show Dex.read b = _
    rw [Dex.read, refused]
    rfl

/-- A header with no tables, of version 35. -/
def emptyHeader (lead : UInt8) (mark : Nat) : Bytes :=
  magicOf lead 35 ++ List.replicate 28 0 ++ Bytes.le32 0x70 ++ Bytes.le32 mark ++
    List.replicate 68 0

/-- A header with a leading zero is accepted, unless its byte order mark is reversed. -/
theorem emptyHeader_by_mark :
    Accepts (emptyHeader 0x30 0x12345678) 35 ∧
      (parse (emptyHeader 0x30 0x78563412)).value = .error .bigEndian := by
  have header : IsHeader 0x30 35 0x12345678 (emptyHeader 0x30 0x12345678) :=
    ⟨by decide, by decide, rfl, by decide +kernel, by decide +kernel⟩
  have reversed : IsHeader 0x30 35 0x78563412 (emptyHeader 0x30 0x78563412) :=
    ⟨by decide, by decide, rfl, by decide +kernel, by decide +kernel⟩
  have unsigned : (emptyHeader 0x30 0x12345678)[4]? ≠ some 0x2B := by decide
  exact ⟨((header_grammar_exact _).2.1 unsigned 35).mpr header,
    ((header_grammar_exact _).2.2 35 reversed).2⟩

/-- A version with a plus sign is accepted, though no leading zero is there. -/
theorem emptyHeader_plus_accepted :
    Accepts (emptyHeader 0x2B 0x12345678) 35 ∧
      ∀ version, ¬ IsHeader 0x30 version 0x12345678 (emptyHeader 0x2B 0x12345678) := by
  refine ⟨⟨ofBytes 35 (emptyHeader 0x2B 0x12345678), by decide +kernel, by decide, rfl⟩, ?_⟩
  intro version header
  have lead : (emptyHeader 0x2B 0x12345678)[4]? = some 0x30 := header.lead_eq
  exact absurd lead (by decide)

end PermissionAudit.Dex.Header
