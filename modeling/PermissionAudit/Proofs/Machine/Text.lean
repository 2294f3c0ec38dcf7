import PermissionAudit.Dex.Descriptor
import PermissionAudit.Proofs.Machine.Basic
import PermissionAudit.Text.Mutf8

/-!
Texts without a trap. Units of a text are put together by shifts, and
descriptors are cut at byte positions, which have to lie between characters:
they do, since what is cut off is in ASCII.
-/

namespace PermissionAudit.Machine

/-! ## Modified UTF-8 -/

/-- The unit coded in two bytes. -/
def unitOfTwo (a b : UInt8) : Run Nat := do
  return (← shiftLeft 16 (a.toNat % 32) 6) ||| Mutf8.payload b

/-- The unit coded in three bytes. -/
def unitOfThree (a b c : UInt8) : Run Nat := do
  return (← shiftLeft 16 (a.toNat % 16) 12) ||| (← shiftLeft 16 (Mutf8.payload b) 6) |||
    Mutf8.payload c

/-- The units that the bytes code. -/
def decodeUnits : Bytes → Fallible Mutf8.Fault (List UInt16)
  | [] => return []
  | a :: rest =>
    if a.toNat = 0 then
      throw .nullByte
    else if a.toNat < 0x80 then do
      return UInt16.ofNat a.toNat :: (← decodeUnits rest)
    else if a.toNat / 32 = 6 then
      match rest with
      | [] => throw .truncated
      | b :: rest =>
        if Mutf8.isContinuation b then do
          let unit ← unitOfTwo a b
          return UInt16.ofNat unit :: (← decodeUnits rest)
        else
          throw .continuationByte
    else if a.toNat / 16 = 14 then
      match rest with
      | [] => throw .truncated
      | b :: rest =>
        if Mutf8.isContinuation b then
          match rest with
          | [] => throw .truncated
          | c :: rest =>
            if Mutf8.isContinuation c then do
              let unit ← unitOfThree a b c
              return UInt16.ofNat unit :: (← decodeUnits rest)
            else
              throw .continuationByte
        else
          throw .continuationByte
    else
      throw (.leadByte a)

theorem payload_lt (b : UInt8) : Mutf8.payload b < 64 := Nat.mod_lt _ (by decide)

theorem unitOfTwo_eq (a b : UInt8) :
    unitOfTwo a b = .ok (a.toNat % 32 * 64 + Mutf8.payload b) := by
  have low := payload_lt b
  rw [unitOfTwo, shiftLeft_eq (by decide)]
  refine congrArg Except.ok ?_
  rw [Nat.or_comm, or_shiftLeft low (by omega)]
  omega

theorem unitOfThree_eq (a b c : UInt8) :
    unitOfThree a b c = .ok (a.toNat % 16 * 4096 + Mutf8.payload b * 64 + Mutf8.payload c) := by
  have middle := payload_lt b
  have low := payload_lt c
  rw [unitOfThree, shiftLeft_eq (by decide), shiftLeft_eq (by decide)]
  refine congrArg Except.ok ?_
  have high : (a.toNat % 16 * 2 ^ 12 % 2 ^ 16) ||| (Mutf8.payload b * 2 ^ 6 % 2 ^ 16) =
      (a.toNat % 16 * 64 + Mutf8.payload b) * 2 ^ 6 % 2 ^ 16 := by
    rw [Nat.or_comm, or_shiftLeft (by omega) (by omega)]
    omega
  rw [high, Nat.or_comm, or_shiftLeft low (by omega)]
  omega

theorem decodeUnits_eq (b : Bytes) : decodeUnits b = finished (Mutf8.decodeUnits b) := by
  fun_induction Mutf8.decodeUnits b <;> rw [decodeUnits.eq_def]
  case case1 => rfl
  case case3 a rest h0 h1 ih =>
    simp only [if_neg h0, if_pos h1, ih]
    exact finished_map _ _
  case case5 a h0 h1 h2 b rest hb ih =>
    simp only [if_neg h0, if_neg h1, if_pos h2, if_pos hb, ih, unitOfTwo_eq, lift_ok, pure_bind]
    exact finished_map _ _
  case case9 a h0 h1 h2 h3 b hb c rest hc ih =>
    simp only [if_neg h0, if_neg h1, if_neg h2, if_pos h3, if_pos hb, if_pos hc, ih,
      unitOfThree_eq, lift_ok, pure_bind]
    exact finished_map _ _
  -- what is left are the errors, with the same checks on both sides
  all_goals
    simp only [*, if_true, if_false]
    rfl

/-! ## Pieces of text -/

/-- The number of bytes that characters take. -/
def byteLength : List Char → Nat
  | [] => 0
  | c :: cs => c.utf8Size + byteLength cs

/-- A text in two pieces, the first of them `n` bytes long. -/
def cut : List Char → Nat → Run (List Char × List Char)
  | cs, 0 => .ok ([], cs)
  | [], n + 1 => .error (.slice 0 (n + 1) 0)
  | c :: cs, n + 1 =>
    if c.utf8Size ≤ n + 1 then do
      let (front, back) ← cut cs (n + 1 - c.utf8Size)
      return (c :: front, back)
    else
      .error (.boundary (n + 1))

/-- The text from byte position `start` on. -/
def textFrom (cs : List Char) (start : Nat) : Run (List Char) := do
  return (← cut cs start).2

/-- The text from byte position `start` up to `stop`. -/
def textBetween (cs : List Char) (start stop : Nat) : Run (List Char) :=
  if start ≤ stop then do
    let (front, _) ← cut cs stop
    textFrom front start
  else
    .error (.slice start stop (byteLength cs))

theorem byteLength_append (cs ds : List Char) :
    byteLength (cs ++ ds) = byteLength cs + byteLength ds := by
  induction cs with
  | nil => exact (Nat.zero_add _).symm
  | cons c cs ih => rw [List.cons_append, byteLength, byteLength, ih, Nat.add_assoc]

theorem cut_append (front back : List Char) :
    cut (front ++ back) (byteLength front) = .ok (front, back) := by
  induction front with
  | nil => cases back <;> rfl
  | cons c front ih =>
    obtain ⟨n, hn⟩ : ∃ n, byteLength (c :: front) = n + 1 :=
      Nat.exists_eq_succ_of_ne_zero (by have := c.utf8Size_pos; rw [byteLength]; omega)
    have rest : n + 1 - c.utf8Size = byteLength front := by
      rw [← hn, byteLength, Nat.add_sub_cancel_left]
    rw [hn, List.cons_append, cut, if_pos (by rw [← hn, byteLength]; omega), rest, ih]
    rfl

theorem textFrom_append (front back : List Char) :
    textFrom (front ++ back) (byteLength front) = .ok back := by
  rw [textFrom, cut_append]
  rfl

theorem textBetween_append (front middle back : List Char) :
    textBetween (front ++ middle ++ back) (byteLength front) (byteLength (front ++ middle)) =
      .ok middle := by
  have ordered : byteLength front ≤ byteLength (front ++ middle) := by
    rw [byteLength_append]
    exact Nat.le_add_right _ _
  rw [textBetween, if_pos ordered, cut_append]
  exact textFrom_append front middle

/-! ## Descriptors -/

/-- The type after the brackets. The name of a class is cut out between its first and its last
byte; nothing is cut out of the other forms. -/
def parseElement (cs : List Char) : Run (Option Descriptor) :=
  if 2 < byteLength cs ∧ cs.head? = some 'L' ∧ cs.getLast? = some ';' then do
    let stop ← sub 64 (byteLength cs) 1
    let name ← textBetween cs 1 stop
    return some (.object (String.ofList name))
  else
    return Descriptor.parseElement? cs

/-- The type a descriptor names. Brackets are counted in bytes. -/
def parseDescriptor (s : String) : Run (Option Descriptor) := do
  let cs := s.toList
  let dimensions := ((cs.flatMap String.utf8EncodeChar).takeWhile (· = 0x5B)).length
  if Descriptor.dimensionLimit ≤ dimensions then
    return none
  let element ← textFrom cs dimensions
  if element = ['V'] ∧ dimensions = 0 then
    return some .void
  let type? ← parseElement element
  return type?.map fun type => if dimensions = 0 then type else .array dimensions type

theorem byteLength_of_ascii {cs : List Char} (h : ∀ c ∈ cs, c.utf8Size = 1) :
    byteLength cs = cs.length := by
  induction cs with
  | nil => rfl
  | cons c cs ih =>
    rw [byteLength, h c List.mem_cons_self, ih fun d hd => h d (List.mem_cons_of_mem _ hd),
      List.length_cons, Nat.add_comm]

/-- The name of a class starts behind one byte and ends before one. -/
theorem parseElement_eq (cs : List Char) :
    parseElement cs = .ok (Descriptor.parseElement? cs) := by
  rw [parseElement]
  split
  · rename_i h
    obtain ⟨long, first, last⟩ := h
    obtain ⟨front, rfl⟩ := List.getLast?_eq_some_iff.mp last
    cases front with
    | nil => simp at first
    | cons c name =>
      obtain rfl : c = 'L' := by simpa using first
      have length : byteLength ('L' :: name ++ [';']) = byteLength (['L'] ++ name) + 1 := by
        rw [byteLength_append]
        rfl
      have named : 1 ≤ name.length := by
        cases name with
        | nil => exact absurd long (by decide)
        | cons d name => simp
      rw [length, sub_eq (Nat.le_add_left _ _), Nat.add_sub_cancel]
      show (textBetween (['L'] ++ name ++ [';']) (byteLength ['L']) _ >>= _) = _
      rw [textBetween_append]
      simp only [List.cons_append, Descriptor.parseElement?]
      rw [if_pos ⟨by simp, by simpa using named⟩, List.dropLast_concat]
      rfl
  · rfl

/-- A character starts with the byte of a bracket only if it is one. -/
theorem exists_first_byte (c : Char) :
    ∃ first more, String.utf8EncodeChar c = first :: more ∧ (first = 0x5B → c = '[') := by
  have lead {n : Nat} (h : n < 256) (he : UInt8.ofNat n = 0x5B) : n = 0x5B := by
    have : (UInt8.ofNat n).toNat = 0x5B := congrArg UInt8.toNat he
    rwa [UInt8.toNat_ofNat', Nat.mod_eq_of_lt h] at this
  unfold String.utf8EncodeChar
  dsimp only
  split
  · rename_i small
    refine ⟨_, [], rfl, fun he => Char.toNat_inj.mp ?_⟩
    exact lead (Nat.lt_of_le_of_lt small (by decide)) he
  -- lead bytes of longer forms are above ASCII
  split
  · exact ⟨_, _, rfl, fun he => by have := lead (by omega) he; omega⟩
  split
  · exact ⟨_, _, rfl, fun he => by have := lead (by omega) he; omega⟩
  · exact ⟨_, _, rfl, fun he => by have := lead (by omega) he; omega⟩

/-- Brackets may be counted in bytes. -/
theorem length_takeWhile_utf8 (cs : List Char) :
    ((cs.flatMap String.utf8EncodeChar).takeWhile (· = 0x5B)).length =
      (cs.takeWhile (· = '[')).length := by
  induction cs with
  | nil => rfl
  | cons c cs ih =>
    rw [List.flatMap_cons]
    by_cases hc : c = '['
    · subst hc
      rw [List.takeWhile_cons_of_pos (by decide), List.length_cons, ← ih]
      rfl
    · obtain ⟨first, more, he, hb⟩ := exists_first_byte c
      rw [he, List.cons_append, List.takeWhile_cons_of_neg (by simpa using fun h => hc (hb h)),
        List.takeWhile_cons_of_neg (by simpa using hc)]
      rfl

theorem textFrom_takeWhile (cs : List Char) :
    textFrom cs (cs.takeWhile (· = '[')).length =
      .ok (cs.drop (cs.takeWhile (· = '[')).length) := by
  have brackets : byteLength (cs.takeWhile (· = '[')) = (cs.takeWhile (· = '[')).length := by
    refine byteLength_of_ascii fun c hc => ?_
    obtain rfl : c = '[' := by simpa using List.all_eq_true.mp List.all_takeWhile c hc
    rfl
  have tail : (cs.takeWhile (· = '[') ++ cs.dropWhile (· = '[')).drop
      (cs.takeWhile (· = '[')).length = cs.dropWhile (· = '[') := List.drop_left
  have pieces := textFrom_append (cs.takeWhile (· = '[')) (cs.dropWhile (· = '['))
  rw [List.takeWhile_append_dropWhile] at tail
  rw [brackets, List.takeWhile_append_dropWhile] at pieces
  rw [pieces, tail]

theorem parseDescriptor_eq (s : String) :
    parseDescriptor s = .ok (Descriptor.parse? s) := by
  simp only [parseDescriptor, Descriptor.parse?, length_takeWhile_utf8]
  by_cases void : s.toList = ['V']
  · rw [void]
    rfl
  · rw [if_neg void]
    split
    · rfl
    · refine (run_bind (textFrom_takeWhile _) _).trans ?_
      rw [if_neg]
      · exact run_bind (parseElement_eq _) _
      · rintro ⟨element, none⟩
        rw [none] at element
        exact void element

end PermissionAudit.Machine
