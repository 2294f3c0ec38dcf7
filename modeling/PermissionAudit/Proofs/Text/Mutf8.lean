import PermissionAudit.Proofs.Text.Utf16
import PermissionAudit.Proofs.Text.Utf8
import PermissionAudit.Text.Mutf8

/-!
UTF-8 read as modified UTF-8. The two codings agree on texts without the zero
character and without characters above `U+FFFF`.
-/

namespace PermissionAudit

namespace Mutf8

/-- A text that both codings write with the same bytes. -/
def IsPlain (s : String) : Prop := ∀ c ∈ s.toList, c ≠ '\x00' ∧ c.toNat ≤ 0xFFFF

-- by the characters of the text, not by all there are
instance (s : String) : Decidable (IsPlain s) :=
  List.decidableBAll (fun c => c ≠ '\x00' ∧ c.toNat ≤ 0xFFFF) s.toList

/-! ## One unit at a time -/

theorem decodeUnits_one {a : UInt8} (hlo : 0 < a.toNat) (hhi : a.toNat < 0x80) (rest : Bytes) :
    decodeUnits (a :: rest) = (decodeUnits rest).map (UInt16.ofNat a.toNat :: ·) := by
  rw [decodeUnits.eq_def]
  simp only [if_neg (show ¬ a.toNat = 0 by omega), if_pos hhi]

theorem decodeUnits_two {a b : UInt8} (ha : a.toNat / 32 = 6) (hb : isContinuation b = true)
    (rest : Bytes) :
    decodeUnits (a :: b :: rest) =
      (decodeUnits rest).map (UInt16.ofNat (a.toNat % 32 * 64 + payload b) :: ·) := by
  rw [decodeUnits.eq_def]
  simp only [if_neg (show ¬ a.toNat = 0 by omega), if_neg (show ¬ a.toNat < 0x80 by omega),
    if_pos ha, if_pos hb]

theorem decodeUnits_three {a b c : UInt8} (ha : a.toNat / 16 = 14) (hb : isContinuation b = true)
    (hc : isContinuation c = true) (rest : Bytes) :
    decodeUnits (a :: b :: c :: rest) =
      (decodeUnits rest).map
        (UInt16.ofNat (a.toNat % 16 * 4096 + payload b * 64 + payload c) :: ·) := by
  rw [decodeUnits.eq_def]
  simp only [if_neg (show ¬ a.toNat = 0 by omega), if_neg (show ¬ a.toNat < 0x80 by omega),
    if_neg (show ¬ a.toNat / 32 = 6 by omega), if_pos ha, if_pos hb, if_pos hc]

theorem isContinuation_ofNat (n : Nat) : isContinuation (UInt8.ofNat (n % 64 + 128)) = true := by
  unfold isContinuation
  rw [Utf8.toNat_ofNat (by omega)]
  exact decide_eq_true (by omega)

theorem payload_ofNat (n : Nat) : payload (UInt8.ofNat (n % 64 + 128)) = n % 64 :=
  Utf8.low_ofNat n

theorem decodeUnits_utf8EncodeChar {c : Char} (hzero : c ≠ '\x00') (hc : c.toNat ≤ 0xFFFF)
    (rest : Bytes) :
    decodeUnits (String.utf8EncodeChar c ++ rest) =
      (decodeUnits rest).map (UInt16.ofNat c.toNat :: ·) := by
  have hpos : c.toNat ≠ 0 := fun h => hzero (Char.toNat_inj.mp h)
  unfold String.utf8EncodeChar
  change c.val.toNat ≤ _ at hc
  change c.val.toNat ≠ 0 at hpos
  change _ = (decodeUnits rest).map (UInt16.ofNat c.val.toNat :: ·)
  generalize c.val.toNat = v at hpos hc ⊢
  dsimp only
  by_cases h1 : v ≤ 0x7F
  · have lead : (UInt8.ofNat v).toNat = v := Utf8.toNat_ofNat (by omega)
    rw [if_pos h1, List.cons_append, List.nil_append, decodeUnits_one (by omega) (by omega), lead]
  by_cases h2 : v ≤ 0x7FF
  · have lead : (UInt8.ofNat (v / 64 % 32 + 192)).toNat = v / 64 % 32 + 192 :=
      Utf8.toNat_ofNat (by omega)
    have number : (v / 64 % 32 + 192) % 32 * 64 + v % 64 = v := by omega
    rw [if_neg h1, if_pos h2]
    simp only [List.cons_append, List.nil_append]
    rw [decodeUnits_two (by omega) (isContinuation_ofNat _), lead, payload_ofNat, number]
  · have lead : (UInt8.ofNat (v / 4096 % 16 + 224)).toNat = v / 4096 % 16 + 224 :=
      Utf8.toNat_ofNat (by omega)
    have number : (v / 4096 % 16 + 224) % 16 * 4096 + v / 64 % 64 * 64 + v % 64 = v := by omega
    rw [if_neg h1, if_neg h2, if_pos hc]
    simp only [List.cons_append, List.nil_append]
    rw [decodeUnits_three (by omega) (isContinuation_ofNat _) (isContinuation_ofNat _), lead,
      payload_ofNat, payload_ofNat, number]

/-! ## Texts -/

theorem decodeUnits_flatMap {cs : List Char} (h : ∀ c ∈ cs, c ≠ '\x00' ∧ c.toNat ≤ 0xFFFF) :
    decodeUnits (cs.flatMap String.utf8EncodeChar) =
      .ok (cs.map fun c => UInt16.ofNat c.toNat) := by
  induction cs with
  | nil => rfl
  | cons c rest ih =>
    obtain ⟨hzero, hc⟩ := h c List.mem_cons_self
    rw [List.flatMap_cons, decodeUnits_utf8EncodeChar hzero hc,
      ih fun c hc => h c (List.mem_cons_of_mem _ hc)]
    rfl

/-- Each character is one unit. -/
theorem utf16_decode_map {cs : List Char} (h : ∀ c ∈ cs, c.toNat ≤ 0xFFFF) :
    Utf16.decode (cs.map fun c => UInt16.ofNat c.toNat) = cs := by
  have units : Utf16.encode cs = cs.map fun c => UInt16.ofNat c.toNat := by
    induction cs with
    | nil => rfl
    | cons c rest ih =>
      have small : c.toNat < 0x10000 := Nat.lt_succ_of_le (h c List.mem_cons_self)
      rw [Utf16.encode, List.flatMap_cons, Utf16.encodeChar_of_lt small, ← Utf16.encode,
        ih fun d hd => h d (List.mem_cons_of_mem _ hd)]
      rfl
  rw [← units, Utf16.decode_encode]

/-- UTF-8 of a plain text is read as modified UTF-8. -/
theorem decode_utf8 {s : String} (h : IsPlain s) : decode (Utf8.encode s) = .ok s := by
  rw [decode, Utf8.encode, decodeUnits_flatMap h]
  show Except.ok (String.ofList (Utf16.decode _)) = _
  rw [utf16_decode_map fun c hc => (h c hc).2, String.ofList_toList]

theorem zero_notMem_map_ofNat (ns : List Nat) (h : ∀ n ∈ ns, 0 < n ∧ n < 256) :
    0 ∉ ns.map UInt8.ofNat := by
  intro hmem
  obtain ⟨n, hn, hzero⟩ := List.mem_map.mp hmem
  obtain ⟨hpos, hlt⟩ := h n hn
  have hzero : (UInt8.ofNat n).toNat = 0 := congrArg UInt8.toNat hzero
  rw [Utf8.toNat_ofNat hlt] at hzero
  omega

theorem zero_notMem_utf8EncodeChar {c : Char} (h : c ≠ '\x00') :
    0 ∉ String.utf8EncodeChar c := by
  have hpos : c.val.toNat ≠ 0 := fun hc => h (Char.toNat_inj.mp hc)
  unfold String.utf8EncodeChar
  generalize c.val.toNat = v at hpos ⊢
  dsimp only
  split
  · refine zero_notMem_map_ofNat [v] ?_
    simp only [List.forall_mem_singleton]
    omega
  split
  · refine zero_notMem_map_ofNat [v / 64 % 32 + 192, v % 64 + 128] ?_
    simp only [List.forall_mem_cons, List.not_mem_nil, false_implies, implies_true, and_true]
    omega
  split
  · refine zero_notMem_map_ofNat
      [v / 4096 % 16 + 224, v / 64 % 64 + 128, v % 64 + 128] ?_
    simp only [List.forall_mem_cons, List.not_mem_nil, false_implies, implies_true, and_true]
    omega
  · refine zero_notMem_map_ofNat
      [v / 262144 % 8 + 240, v / 4096 % 64 + 128, v / 64 % 64 + 128, v % 64 + 128] ?_
    simp only [List.forall_mem_cons, List.not_mem_nil, false_implies, implies_true, and_true]
    omega

/-- A plain text has no zero byte. -/
theorem zero_notMem_utf8 {s : String} (h : IsPlain s) : 0 ∉ Utf8.encode s := by
  intro hmem
  obtain ⟨c, hc, hbyte⟩ := List.mem_flatMap.mp hmem
  exact zero_notMem_utf8EncodeChar (h c hc).1 hbyte

end Mutf8

end PermissionAudit
