import PermissionAudit.Text.Utf8

/-!
Reading coded text back. The lead byte of a character tells how many bytes follow,
and the ranges that the scanner checks hold for every character, because none is a
surrogate or lies above `U+10FFFF`. So the scanner takes the bytes of one character
at a time, and the text of its coding is the text again.
-/

namespace PermissionAudit.Utf8

/-! ## The scanner, by the number of bytes -/

theorem scan_one {a : UInt8} (ha : a.toNat < 0x80) (rest : Bytes) :
    scan (a :: rest) = some (Char.ofNat a.toNat) :: scan rest := by
  rw [scan.eq_def]
  simp only [ha, if_true]

theorem scan_two {a b : UInt8} (hlo : 0xC2 ≤ a.toNat) (hhi : a.toNat ≤ 0xDF)
    (hb : isContinuation b = true) (rest : Bytes) :
    scan (a :: b :: rest) = some (Char.ofNat (a.toNat % 32 * 64 + b.toNat % 64)) :: scan rest := by
  have h1 : ¬ a.toNat < 0x80 := by omega
  rw [scan.eq_def]
  simp only [h1, hlo, hhi, hb, decide_true, Bool.and_self, if_true, if_false]

theorem scan_three {a b c : UInt8} (hlo : 0xE0 ≤ a.toNat) (hhi : a.toNat ≤ 0xEF)
    (hb : within (secondRange a.toNat) b = true) (hc : isContinuation c = true) (rest : Bytes) :
    scan (a :: b :: c :: rest) =
      some (Char.ofNat (a.toNat % 16 * 4096 + b.toNat % 64 * 64 + c.toNat % 64)) :: scan rest := by
  have h1 : ¬ a.toNat < 0x80 := by omega
  have h2 : ¬ a.toNat ≤ 0xDF := by omega
  rw [scan.eq_def]
  simp only [h1, h2, hlo, hhi, hb, hc, decide_true, decide_false, Bool.and_self, Bool.and_false,
    Bool.false_eq_true, if_true, if_false]

theorem scan_four {a b c d : UInt8} (hlo : 0xF0 ≤ a.toNat) (hhi : a.toNat ≤ 0xF4)
    (hb : within (secondRange a.toNat) b = true) (hc : isContinuation c = true)
    (hd : isContinuation d = true) (rest : Bytes) :
    scan (a :: b :: c :: d :: rest) =
      some (Char.ofNat (a.toNat % 8 * 262144 + b.toNat % 64 * 4096 + c.toNat % 64 * 64 +
        d.toNat % 64)) :: scan rest := by
  have h1 : ¬ a.toNat < 0x80 := by omega
  have h2 : ¬ a.toNat ≤ 0xDF := by omega
  have h3 : ¬ a.toNat ≤ 0xEF := by omega
  rw [scan.eq_def]
  simp only [h1, h2, h3, hlo, hhi, hb, hc, hd, decide_true, decide_false, Bool.and_self,
    Bool.and_false, Bool.false_eq_true, if_true, if_false]

/-! ## The bytes of a character -/

theorem toNat_ofNat {n : Nat} (h : n < 256) : (UInt8.ofNat n).toNat = n := by
  rw [UInt8.toNat_ofNat']
  exact Nat.mod_eq_of_lt h

theorem within_iff {range : Nat × Nat} {b : UInt8} :
    within range b = true ↔ range.1 ≤ b.toNat ∧ b.toNat ≤ range.2 := by
  simp [within]

theorem isContinuation_ofNat (n : Nat) : isContinuation (UInt8.ofNat (n % 64 + 128)) = true := by
  unfold isContinuation
  rw [within_iff, toNat_ofNat (by omega)]
  omega

theorem low_ofNat (n : Nat) : (UInt8.ofNat (n % 64 + 128)).toNat % 64 = n % 64 := by
  rw [toNat_ofNat (by omega)]
  omega

/-- Three bytes: overlong forms are of smaller numbers, and behind the range of `0xED` there are
surrogates only. -/
theorem within_second_of_three {v : Nat} (hlo : 0x7FF < v) (hhi : v ≤ 0xFFFF)
    (hv : v < 0xD800 ∨ 0xDFFF < v) :
    within (secondRange (v / 4096 % 16 + 224)) (UInt8.ofNat (v / 64 % 64 + 128)) = true := by
  rw [within_iff, toNat_ofNat (by omega)]
  unfold secondRange
  by_cases hE0 : v / 4096 % 16 + 224 = 0xE0
  · rw [if_pos hE0]
    omega
  by_cases hED : v / 4096 % 16 + 224 = 0xED
  · rw [if_neg hE0, if_pos hED]
    omega
  · rw [if_neg hE0, if_neg hED, if_neg (by omega), if_neg (by omega)]
    omega

/-- Four bytes: overlong forms are of smaller numbers, and behind the range of `0xF4` there are
no characters. -/
theorem within_second_of_four {v : Nat} (hlo : 0xFFFF < v) (hhi : v < 0x110000) :
    within (secondRange (v / 262144 % 8 + 240)) (UInt8.ofNat (v / 4096 % 64 + 128)) = true := by
  rw [within_iff, toNat_ofNat (by omega)]
  unfold secondRange
  rw [if_neg (by omega), if_neg (by omega)]
  by_cases hF0 : v / 262144 % 8 + 240 = 0xF0
  · rw [if_pos hF0]
    omega
  by_cases hF4 : v / 262144 % 8 + 240 = 0xF4
  · rw [if_neg hF0, if_pos hF4]
    omega
  · rw [if_neg hF0, if_neg hF4]
    omega

/-- The scanner reads a coded character back and goes on behind it. -/
theorem scan_utf8EncodeChar (c : Char) (rest : Bytes) :
    scan (String.utf8EncodeChar c ++ rest) = some c :: scan rest := by
  have valid : c.val.toNat < 0xD800 ∨ 0xDFFF < c.val.toNat ∧ c.val.toNat < 0x110000 := c.valid
  have back : Char.ofNat c.val.toNat = c := Char.ofNat_toNat c
  unfold String.utf8EncodeChar
  generalize c.val.toNat = v at valid back ⊢
  dsimp only
  by_cases h1 : v ≤ 0x7F
  · have lead : (UInt8.ofNat v).toNat = v := toNat_ofNat (by omega)
    rw [if_pos h1, List.cons_append, List.nil_append, scan_one (by omega), lead, back]
  by_cases h2 : v ≤ 0x7FF
  · have lead : (UInt8.ofNat (v / 64 % 32 + 192)).toNat = v / 64 % 32 + 192 :=
      toNat_ofNat (by omega)
    have number : (v / 64 % 32 + 192) % 32 * 64 + v % 64 = v := by omega
    rw [if_neg h1, if_pos h2]
    simp only [List.cons_append, List.nil_append]
    rw [scan_two (by omega) (by omega) (isContinuation_ofNat _), lead, low_ofNat, number, back]
  by_cases h3 : v ≤ 0xFFFF
  · have lead : (UInt8.ofNat (v / 4096 % 16 + 224)).toNat = v / 4096 % 16 + 224 :=
      toNat_ofNat (by omega)
    have second := within_second_of_three (by omega) h3 (by omega)
    have number : (v / 4096 % 16 + 224) % 16 * 4096 + v / 64 % 64 * 64 + v % 64 = v := by omega
    rw [if_neg h1, if_neg h2, if_pos h3]
    simp only [List.cons_append, List.nil_append]
    rw [scan_three (by omega) (by omega) (by rw [lead]; exact second) (isContinuation_ofNat _),
      lead, low_ofNat, low_ofNat, number, back]
  · have lead : (UInt8.ofNat (v / 262144 % 8 + 240)).toNat = v / 262144 % 8 + 240 :=
      toNat_ofNat (by omega)
    have second := within_second_of_four (by omega) (show v < 0x110000 by omega)
    have number : (v / 262144 % 8 + 240) % 8 * 262144 + v / 4096 % 64 * 4096 + v / 64 % 64 * 64 +
        v % 64 = v := by omega
    rw [if_neg h1, if_neg h2, if_neg h3]
    simp only [List.cons_append, List.nil_append]
    rw [scan_four (by omega) (by omega) (by rw [lead]; exact second) (isContinuation_ofNat _)
      (isContinuation_ofNat _), lead, low_ofNat, low_ofNat, low_ofNat, number, back]

/-! ## Texts -/

theorem scan_flatMap (cs : List Char) :
    scan (cs.flatMap String.utf8EncodeChar) = cs.map some := by
  induction cs with
  | nil => rfl
  | cons c rest ih => rw [List.flatMap_cons, scan_utf8EncodeChar, ih, List.map_cons]

/-- Coded text is read back. -/
theorem decode?_encode (s : String) : decode? (encode s) = some s := by
  have all : (s.toList.map some).mapM id = some s.toList := by
    induction s.toList with
    | nil => rfl
    | cons c rest ih => simp [ih]
  rw [decode?, encode, scan_flatMap, all, Option.map_some, String.ofList_toList]

theorem decodeLossy_encode (s : String) : decodeLossy (encode s) = s := by
  rw [decodeLossy, encode, scan_flatMap, List.map_map]
  exact (congrArg String.ofList (List.map_id _)).trans s.ofList_toList

/-! ## Order -/

theorem utf8EncodeChar_of_lt {c : Char} (h : c.toNat < 128) :
    String.utf8EncodeChar c = [UInt8.ofNat c.toNat] := by
  refine String.utf8EncodeChar_eq_singleton (Char.utf8Size_eq_one_iff.mpr ?_)
  rw [UInt32.le_iff_toNat_le]
  exact Nat.le_of_lt_succ h

/-- Texts whose characters take one byte each are in the order of their bytes. -/
theorem encode_lt_encode_iff {s t : String} (hs : ∀ c ∈ s.toList, c.toNat < 128)
    (ht : ∀ c ∈ t.toList, c.toNat < 128) : encode s < encode t ↔ s < t := by
  rw [encode, encode, String.lt_iff]
  generalize s.toList = cs at hs ⊢
  generalize t.toList = ds at ht ⊢
  induction cs generalizing ds with
  | nil =>
    cases ds with
    | nil => simp
    | cons d rest =>
      have hd := ht d (by simp)
      simp [utf8EncodeChar_of_lt hd]
  | cons c rest ih =>
    have hc := hs c (by simp)
    cases ds with
    | nil => simp
    | cons d rest' =>
      have hd := ht d (by simp)
      have later := ih (fun x hx => hs x (by simp [hx])) rest' fun x hx => ht x (by simp [hx])
      have first : UInt8.ofNat c.toNat < UInt8.ofNat d.toNat ↔ c < d := by
        rw [UInt8.lt_iff_toNat_lt, toNat_ofNat (by omega), toNat_ofNat (by omega)]
        exact Iff.rfl
      have same : UInt8.ofNat c.toNat = UInt8.ofNat d.toNat ↔ c = d := by
        rw [← UInt8.toNat_inj, toNat_ofNat (by omega), toNat_ofNat (by omega)]
        exact Char.toNat_inj
      simp only [List.flatMap_cons, utf8EncodeChar_of_lt hc, utf8EncodeChar_of_lt hd,
        List.singleton_append, List.cons_lt_cons_iff, first, same, later]

end PermissionAudit.Utf8
