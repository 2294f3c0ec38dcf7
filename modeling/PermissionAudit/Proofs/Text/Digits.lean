import PermissionAudit.Text.Digits

/-!
What decimal digits denote. A number is read digit by digit, and a character that is
no digit stops the reading for good.
-/

namespace PermissionAudit.Digits

/-- A number has digits only. -/
theorem not_mem_number {c : Char} (h : c.isDigit = false) (n : Nat) : c ∉ (toString n).toList := by
  intro hc
  rw [show toString n = n.repr from rfl, Nat.toList_repr] at hc
  have digit : c.isDigit = true := Nat.isDigit_of_mem_toDigits (by decide) (by decide) hc
  rw [h] at digit
  cases digit

/-- Takes one more digit to a number. -/
def next (read : Option Nat) (c : Char) : Option Nat :=
  read.bind fun n => if '0' ≤ c ∧ c ≤ '9' then some (10 * n + (c.toNat - '0'.toNat)) else none

theorem foldl_next_none (digits : List Char) : digits.foldl next none = none := by
  induction digits with
  | nil => rfl
  | cons c rest ih => exact ih

theorem foldl_next_eq_some_iff {digits : List Char} {m n : Nat} :
    digits.foldl next (some m) = some n ↔
      (∀ c ∈ digits, '0' ≤ c ∧ c ≤ '9') ∧ n = Nat.ofDigitChars 10 digits m := by
  induction digits generalizing m with
  | nil => simp [eq_comm]
  | cons c rest ih =>
    rw [List.foldl_cons, Nat.ofDigitChars_cons, List.forall_mem_cons, and_assoc, ← ih, next]
    by_cases hc : '0' ≤ c ∧ c ≤ '9'
    · simp [hc]
    · simp only [hc, Option.bind_some, if_false, false_and, foldl_next_none, reduceCtorEq]

/-- A number is read from digits if there are some, and nothing else. -/
theorem readDecimal_eq_some_iff {digits : List Char} {n : Nat} :
    readDecimal digits = some n ↔
      digits ≠ [] ∧ (∀ c ∈ digits, '0' ≤ c ∧ c ≤ '9') ∧ n = Nat.ofDigitChars 10 digits 0 := by
  cases digits with
  | nil => simp [readDecimal]
  | cons c rest =>
    rw [and_iff_right (List.cons_ne_nil c rest)]
    exact foldl_next_eq_some_iff

end PermissionAudit.Digits
