import Mathlib.Algebra.Order.Ring.Int
import Mathlib.Data.List.Induction
import PermissionAudit.Proofs.Sequence.Checked

/-!
Computations on a machine with words of 64 bits. Reading a list at a position,
cutting a piece out of it, looking up a key, arithmetic on words and shifting
are defined on part of their operands only; outside of it a computation stops
in a trap and gives no result. The functions of the reader are written here
with these operations, and shown to give the results of their total forms.
-/

namespace PermissionAudit.Machine

/-- Why an operation has no result. -/
inductive Trap where
  /-- A position is not one of the list. -/
  | index (position length : Nat)
  /-- The ends of a piece are not in order, or not inside. -/
  | slice (start stop length : Nat)
  /-- The end of a piece of text is inside a character. -/
  | boundary (position : Nat)
  /-- A number does not fit into its word. -/
  | overflow (bits : Nat)
  /-- A shift by the width of the word or more. -/
  | shift (amount bits : Nat)
  /-- A key is not in the map. -/
  | key (name : String)
  /-- A graph has no number left for another node or edge. -/
  | capacity (size : Nat)
  /-- A value that is always shown as text could not be. -/
  | display
deriving DecidableEq

/-- The trap of an operation on words. -/
def Trap.IsOverflow (t : Trap) : Prop := ∃ bits, t = .overflow bits

/-- A computation that may end in a trap. -/
abbrev Run := Except Trap

/-- A computation that may also end with an error of its own. -/
abbrev Fallible (ε α : Type) := ExceptT ε Run α

/-! ## Operations -/

section Operations

variable {α : Type}

/-- The element at a position. -/
def index (xs : List α) (i : Nat) : Run α :=
  match xs[i]? with
  | some x => .ok x
  | none => .error (.index i xs.length)

/-- The elements from position `start` up to `stop`. -/
def slice (xs : List α) (start stop : Nat) : Run (List α) :=
  if start ≤ stop ∧ stop ≤ xs.length then
    .ok ((xs.take stop).drop start)
  else
    .error (.slice start stop xs.length)

/-- The elements from position `start` on. -/
def sliceFrom (xs : List α) (start : Nat) : Run (List α) := slice xs start xs.length

/-- The sum of two unsigned words. -/
def add (bits x y : Nat) : Run Nat :=
  if x + y < 2 ^ bits then .ok (x + y) else .error (.overflow bits)

/-- The difference of two unsigned words. -/
def sub (bits x y : Nat) : Run Nat :=
  if y ≤ x then .ok (x - y) else .error (.overflow bits)

/-- The product of two unsigned words. -/
def mul (bits x y : Nat) : Run Nat :=
  if x * y < 2 ^ bits then .ok (x * y) else .error (.overflow bits)

/-- Numbers that a signed word holds. -/
def IsSigned (bits : Nat) (x : Int) : Prop :=
  -(2 ^ (bits - 1) : Nat) ≤ x ∧ x < (2 ^ (bits - 1) : Nat)

instance (bits : Nat) (x : Int) : Decidable (IsSigned bits x) := by
  unfold IsSigned
  infer_instance

/-- The sum of two signed words. -/
def addSigned (bits : Nat) (x y : Int) : Run Int :=
  if IsSigned bits (x + y) then .ok (x + y) else .error (.overflow bits)

/-- An unsigned word shifted to the left; bits that leave it are dropped. -/
def shiftLeft (bits x amount : Nat) : Run Nat :=
  if amount < bits then .ok (x * 2 ^ amount % 2 ^ bits) else .error (.shift amount bits)

/-- An unsigned word shifted to the right. -/
def shiftRight (bits x amount : Nat) : Run Nat :=
  if amount < bits then .ok (x / 2 ^ amount) else .error (.shift amount bits)

/-- A signed word shifted to the left; bits that leave it are dropped. -/
def shiftLeftSigned (bits : Nat) (x : Int) (amount : Nat) : Run Int :=
  if amount < bits then
    .ok ((x * (2 ^ amount : Nat)).bmod (2 ^ bits))
  else
    .error (.shift amount bits)

/-- A signed word shifted to the right, its sign kept. -/
def shiftRightSigned (bits : Nat) (x : Int) (amount : Nat) : Run Int :=
  if amount < bits then .ok (x / (2 ^ amount : Nat)) else .error (.shift amount bits)

theorem index_eq {xs : List α} {i : Nat} {x : α} (h : xs[i]? = some x) : index xs i = .ok x := by
  rw [index, h]

theorem slice_eq {xs : List α} {start stop : Nat} (h : start ≤ stop) (hs : stop ≤ xs.length) :
    slice xs start stop = .ok ((xs.take stop).drop start) :=
  if_pos ⟨h, hs⟩

theorem sliceFrom_eq {xs : List α} {start : Nat} (h : start ≤ xs.length) :
    sliceFrom xs start = .ok (xs.drop start) := by
  rw [sliceFrom, slice_eq h (Nat.le_refl _), List.take_length]

theorem add_eq {bits x y : Nat} (h : x + y < 2 ^ bits) : add bits x y = .ok (x + y) := if_pos h

theorem sub_eq {bits x y : Nat} (h : y ≤ x) : sub bits x y = .ok (x - y) := if_pos h

theorem mul_eq {bits x y : Nat} (h : x * y < 2 ^ bits) : mul bits x y = .ok (x * y) := if_pos h

theorem addSigned_eq {bits : Nat} {x y : Int} (h : IsSigned bits (x + y)) :
    addSigned bits x y = .ok (x + y) := if_pos h

theorem shiftLeft_eq {bits x amount : Nat} (h : amount < bits) :
    shiftLeft bits x amount = .ok (x * 2 ^ amount % 2 ^ bits) := if_pos h

theorem shiftRight_eq {bits x amount : Nat} (h : amount < bits) :
    shiftRight bits x amount = .ok (x / 2 ^ amount) := if_pos h

/-- A lower half put under a higher one. -/
theorem or_shiftLeft {bits amount lo hi : Nat} (hl : lo < 2 ^ amount)
    (hh : hi * 2 ^ amount < 2 ^ bits) :
    lo ||| (hi * 2 ^ amount % 2 ^ bits) = lo + 2 ^ amount * hi := by
  rw [Nat.mod_eq_of_lt hh, Nat.mul_comm hi, Nat.or_comm, ← Nat.two_pow_add_eq_or_of_lt hl hi,
    Nat.add_comm]

/-- A short signed word keeps its value in a longer one, as far as it is not shifted out. -/
theorem IsSigned.shift {short bits amount : Nat} {x : Int} (hx : IsSigned short x)
    (hs : 0 < short) (h : short + amount ≤ bits) : IsSigned bits (x * (2 ^ amount : Nat)) := by
  have room : 2 ^ (short - 1) * 2 ^ amount ≤ 2 ^ (bits - 1) := by
    rw [← Nat.pow_add]
    exact Nat.pow_le_pow_right (by decide) (by omega)
  have scale : (0 : Int) < (2 ^ amount : Nat) := Int.natCast_pos.mpr (Nat.two_pow_pos amount)
  have low := Int.mul_le_mul_of_nonneg_right hx.1 (Int.le_of_lt scale)
  have high := Int.mul_lt_mul_of_pos_right hx.2 scale
  rw [Int.neg_mul] at low
  rw [← Int.natCast_mul] at low high
  constructor <;> omega

theorem IsSigned.mono {short bits : Nat} {x : Int} (hx : IsSigned short x) (hs : 0 < short)
    (h : short ≤ bits) : IsSigned bits x := by
  simpa using hx.shift hs (show short + 0 ≤ bits from h)

theorem shiftLeftSigned_eq {bits amount : Nat} {x : Int} (h : amount < bits)
    (hx : IsSigned bits (x * (2 ^ amount : Nat))) :
    shiftLeftSigned bits x amount = .ok (x * (2 ^ amount : Nat)) := by
  obtain ⟨width, rfl⟩ := Nat.exists_eq_succ_of_ne_zero (Nat.ne_of_gt (Nat.zero_lt_of_lt h))
  obtain ⟨low, high⟩ := hx
  rw [Nat.succ_sub_one] at low high
  rw [shiftLeftSigned, if_pos h, Int.bmod_eq_of_le]
  · rw [Nat.pow_succ]
    omega
  · rw [Nat.pow_succ]
    omega

theorem shiftRightSigned_eq {bits amount : Nat} {x : Int} (h : amount < bits) :
    shiftRightSigned bits x amount = .ok (x / (2 ^ amount : Nat)) := if_pos h

end Operations

/-! ## Computations without a trap -/

section Finished

variable {ε δ α β : Type}

/-- A computation that has come to its end, with a result or an error of its own. -/
def finished (x : Except ε α) : Fallible ε α := ExceptT.mk (.ok x)

@[simp] theorem run_finished (x : Except ε α) : (finished x).run = .ok x := rfl

theorem finished_ok (a : α) : (finished (.ok a) : Fallible ε α) = pure a := rfl

/-- Steps that are all without a trap are so one after another. -/
theorem finished_bind {x : Except ε α} {f : α → Fallible ε β} {g : α → Except ε β}
    (h : ∀ a, x = .ok a → f a = finished (g a)) :
    (finished x >>= f) = finished (x >>= g) := by
  cases x with
  | error e => rfl
  | ok a => exact h a rfl

/-- An operation inside its domain is passed over. -/
theorem lift_bind {r : Run α} {a : α} (h : r = .ok a) (f : α → Fallible ε β) :
    ((liftM r : Fallible ε α) >>= f) = f a := by
  subst h
  rfl

theorem run_bind {r : Run α} {a : α} (h : r = .ok a) (f : α → Run β) : (r >>= f) = f a := by
  subst h
  rfl

theorem lift_ok (a : α) : (liftM (.ok a : Run α) : Fallible ε α) = pure a := rfl

theorem finished_map (f : α → β) (x : Except ε α) : f <$> finished x = finished (x.map f) := by
  cases x <;> rfl

theorem finished_mapM {f : α → Fallible ε β} {g : α → Except ε β} {xs : List α}
    (h : ∀ x ∈ xs, f x = finished (g x)) : xs.mapM f = finished (xs.mapM g) := by
  induction xs with
  | nil => rfl
  | cons x rest ih =>
    rw [List.mapM_cons, List.mapM_cons, h x (by simp)]
    refine finished_bind fun y _ => ?_
    rw [ih fun x hx => h x (by simp [hx])]
    exact finished_bind fun ys _ => rfl

/-- The same computation with its errors renamed. -/
def mapError (f : ε → δ) (x : Fallible ε α) : Fallible δ α :=
  ExceptT.mk (x.run.map fun result => result.mapError f)

theorem mapError_finished (f : ε → δ) (x : Except ε α) :
    mapError f (finished x) = finished (x.mapError f) := rfl

theorem mapM_eq_ok {f : α → Run β} {g : α → β} {xs : List α} (h : ∀ x ∈ xs, f x = .ok (g x)) :
    xs.mapM f = .ok (xs.map g) := by
  induction xs with
  | nil => rfl
  | cons x rest ih =>
    rw [List.mapM_cons, h x (by simp), ih fun x hx => h x (by simp [hx])]
    rfl

end Finished

/-! ## Computations with a limit -/

section Limited

variable {α β : Type} {fits fits' : Prop} {limit : Trap → Prop} {wanted : α → Prop}
  {wanted' : β → Prop} {r : Run α}

/-- The computation ends as wanted if its result fits, and in a trap of some kind if it does
not. -/
inductive Limited (fits : Prop) (limit : Trap → Prop) (wanted : α → Prop) : Run α → Prop where
  | ok {a : α} (hf : fits) (hw : wanted a) : Limited fits limit wanted (.ok a)
  | trap {t : Trap} (hf : ¬ fits) (ht : limit t) : Limited fits limit wanted (.error t)

namespace Limited

theorem of_ite [Decidable fits] {a : α} {t : Trap} (ht : limit t) :
    Limited fits limit (· = a) (if fits then .ok a else .error t) := by
  split
  · next hf => exact .ok hf rfl
  · next hf => exact .trap hf ht

theorem add (bits x y : Nat) :
    Limited (x + y < 2 ^ bits) Trap.IsOverflow (· = x + y) (add bits x y) :=
  of_ite ⟨bits, rfl⟩

theorem addSigned (bits : Nat) (x y : Int) :
    Limited (IsSigned bits (x + y)) Trap.IsOverflow (· = x + y) (addSigned bits x y) :=
  of_ite ⟨bits, rfl⟩

theorem imp (h : Limited fits limit wanted r) {wanted' : α → Prop}
    (hi : ∀ a, wanted a → wanted' a) : Limited fits limit wanted' r := by
  cases h with
  | ok hf hw => exact .ok hf (hi _ hw)
  | trap hf ht => exact .trap hf ht

theorem congr (h : Limited fits limit wanted r) (same : fits ↔ fits') :
    Limited fits' limit wanted r := by
  rwa [← propext same]

/-- One computation after another: what the second one makes fits only if what the first one
made did. -/
theorem bind (h : Limited fits limit wanted r) {f : α → Run β} (smaller : fits' → fits)
    (next : ∀ a, fits → wanted a → Limited fits' limit wanted' (f a)) :
    Limited fits' limit wanted' (r >>= f) := by
  cases h with
  | ok hf hw => exact next _ hf hw
  | trap hf ht => exact .trap (mt smaller hf) ht

/-- **A loop**: if each round keeps what is wanted of the elements so far, or traps when these
are too many, then so does the whole. -/
theorem foldlM {f : β → α → Run β} {F : List α → Prop} {W : List α → β → Prop}
    {xs : List α} {b : β} (smaller : ∀ done x, F (done ++ [x]) → F done)
    (start : F [] ∧ W [] b)
    (round : ∀ done, ∀ x ∈ xs, ∀ b, F done → W done b →
      Limited (F (done ++ [x])) limit (W (done ++ [x])) (f b x)) :
    Limited (F xs) limit (W xs) (xs.foldlM f b) := by
  induction xs using List.reverseRecOn with
  | nil => exact .ok start.1 start.2
  | append_singleton done x ih =>
    rw [List.foldlM_append]
    refine (ih fun done y hy => round done y (by simp [hy])).bind (smaller done x) ?_
    intro b hf hw
    simpa using round done x (by simp) b hf hw

theorem eq_ok {a : α} (h : Limited fits limit (· = a) r) (hf : fits) : r = .ok a := by
  cases h with
  | ok _ hw => rw [hw]
  | trap hn _ => exact absurd hf hn

theorem eq_error (h : Limited fits limit wanted r) (hf : ¬ fits) : ∃ t, r = .error t ∧ limit t := by
  cases h with
  | ok hn _ => exact absurd hn hf
  | trap _ ht => exact ⟨_, rfl, ht⟩

theorem eq_ok_iff {a : α} (h : Limited fits limit (· = a) r) : r = .ok a ↔ fits := by
  refine ⟨fun hr => ?_, h.eq_ok⟩
  cases h with
  | ok hf _ => exact hf
  | trap _ _ => cases hr

theorem eq_ite [Decidable fits] {a : α} {t : Trap} (h : Limited fits (· = t) (· = a) r) :
    r = if fits then .ok a else .error t := by
  split
  · next hf => exact h.eq_ok hf
  · next hf =>
    obtain ⟨t', rfl, rfl⟩ := h.eq_error hf
    rfl

end Limited

end Limited

end PermissionAudit.Machine
