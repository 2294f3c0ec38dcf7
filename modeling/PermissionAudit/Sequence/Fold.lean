/-!
Folds that put something into a state at every step.
-/

namespace PermissionAudit

/-- A relation between a state and the list of what went into it holds after a fold, if every
step keeps it and puts in the output of its element. -/
theorem foldl_outputs {α β γ : Type} {P : β → List γ → Prop} {step : β → α → β}
    {output : α → List γ} {xs : List α} {b : β} {done : List γ} (start : P b done)
    (keep : ∀ b done, ∀ x ∈ xs, P b done → P (step b x) (done ++ output x)) :
    P (xs.foldl step b) (done ++ xs.flatMap output) := by
  induction xs generalizing b done with
  | nil => simpa using start
  | cons x rest ih =>
    have first := keep b done x (by simp) start
    have later := ih first fun b done y hy => keep b done y (by simp [hy])
    simpa [List.append_assoc] using later

end PermissionAudit
