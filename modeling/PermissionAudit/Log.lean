/-!
Log records as data. A computation that logs is a value together with the
records it emits, so that what was logged can be compared, filtered and
reasoned about like any other result.
-/

namespace PermissionAudit

/-- Severity of a record, from the most severe to the least. -/
inductive Level where
  | error
  | warn
  | info
  | debug
  | trace
deriving DecidableEq

/-- Position on the severity scale; a lower rank is more severe. -/
def Level.rank : Level → Nat
  | .error => 0
  | .warn => 1
  | .info => 2
  | .debug => 3
  | .trace => 4

/-- The word a record is shown with. -/
def Level.label : Level → String
  | .error => "ERROR"
  | .warn => "WARN"
  | .info => "INFO"
  | .debug => "DEBUG"
  | .trace => "TRACE"

structure LogRecord where
  level : Level
  message : String
deriving DecidableEq

/-- A record as one line: its level, a space and its message. -/
def LogRecord.line (r : LogRecord) : String :=
  r.level.label ++ " " ++ r.message

/-- Records at the given level or a more severe one, in order. -/
def LogRecord.upTo (level : Level) (records : List LogRecord) : List LogRecord :=
  records.filter fun r => r.level.rank ≤ level.rank

/-- A value with the records emitted while computing it, in order. -/
structure Logged (α : Type) where
  value : α
  records : List LogRecord

namespace Logged

instance : Monad Logged where
  pure a := ⟨a, []⟩
  bind x f :=
    let y := f x.value
    ⟨y.value, x.records ++ y.records⟩

@[simp] theorem value_pure {α : Type} (a : α) : (pure a : Logged α).value = a := rfl

@[simp] theorem records_pure {α : Type} (a : α) : (pure a : Logged α).records = [] := rfl

@[simp] theorem value_bind {α β : Type} (x : Logged α) (f : α → Logged β) :
    (x >>= f).value = (f x.value).value := rfl

@[simp] theorem records_bind {α β : Type} (x : Logged α) (f : α → Logged β) :
    (x >>= f).records = x.records ++ (f x.value).records := rfl

@[simp] theorem value_map {α β : Type} (f : α → β) (x : Logged α) :
    (f <$> x).value = f x.value := rfl

@[ext] theorem ext {α : Type} {x y : Logged α} (hv : x.value = y.value)
    (hr : x.records = y.records) : x = y := by
  cases x; cases y; simp_all

instance : LawfulMonad Logged :=
  LawfulMonad.mk' Logged
    (fun x => ext rfl (by show x.records ++ [] = x.records; simp))
    (fun _ _ => rfl)
    (fun x f g => ext rfl (by simp))

/-- A fold that logs folds the values; the records play no part in it. -/
theorem value_foldlM {α β : Type} (f : β → α → Logged β) (xs : List α) (b : β) :
    (xs.foldlM f b).value = xs.foldl (fun b x => (f b x).value) b := by
  induction xs generalizing b with
  | nil => rfl
  | cons x rest ih =>
    rw [List.foldlM_cons, value_bind, ih]
    rfl

theorem value_mapM {α β : Type} (f : α → Logged β) (xs : List α) :
    (xs.mapM f).value = xs.map fun x => (f x).value := by
  induction xs with
  | nil => rfl
  | cons x rest ih => simp [List.mapM_cons, ih]

/-- Emits the given records. -/
def emit (records : List LogRecord) : Logged Unit := ⟨(), records⟩

def error (message : String) : Logged Unit := emit [⟨.error, message⟩]
def warn (message : String) : Logged Unit := emit [⟨.warn, message⟩]
def info (message : String) : Logged Unit := emit [⟨.info, message⟩]
def debug (message : String) : Logged Unit := emit [⟨.debug, message⟩]
def trace (message : String) : Logged Unit := emit [⟨.trace, message⟩]

end Logged

/-- A logging computation that may fail; the records of a failed one are kept. -/
abbrev Attempt (ε α : Type) := ExceptT ε Logged α

end PermissionAudit
