import Reckoner.Trace

/-!
# Simplification that leaves a trace

A step of the simplifier gives a value or fails, and leaves a trace in either case. The value never
depends on the trace: `value_bind` says how values compose, and it is all that a statement about
results needs.
-/

namespace Reckoner

/-- Why a simplification has no result. -/
inductive SimplifyError where
  /-- An exact number has to become a double and is beyond the finite ones. -/
  | beyondDouble
  /-- A product came out that has no factor to look at. -/
  | emptyProduct
  /-- The depth allotted to the recursion did not suffice. -/
  | unfinished
  deriving DecidableEq

/-- A value or a failure, with the trace of how it came about. -/
structure Logged (α : Type) where
  /-- The value or the failure. -/
  value : Except SimplifyError α
  /-- What happened. -/
  trace : Trace

namespace Logged

variable {α β : Type}

/-- A value without any event. -/
def done (a : α) : Logged α := ⟨.ok a, .empty⟩

/-- A failure without any event. -/
def fail (e : SimplifyError) : Logged α := ⟨.error e, .empty⟩

/-- A value that has to exist, or else an exact number is too large for a double. -/
def ofDouble? : Option α → Logged α
  | some a => done a
  | none => fail .beyondDouble

/-- An event. -/
def note (e : Event) : Logged Unit := ⟨.ok (), .one e⟩

/-- First one step and then, on its value, another. -/
def andThen (x : Logged α) (f : α → Logged β) : Logged β :=
  match x.value with
  | .error e => ⟨.error e, x.trace⟩
  | .ok a => ⟨(f a).value, x.trace ++ (f a).trace⟩

instance : Monad Logged where
  pure := done
  bind := andThen

@[simp] theorem value_pure (a : α) : (pure a : Logged α).value = .ok a := rfl

@[simp] theorem value_done (a : α) : (done a).value = .ok a := rfl

@[simp] theorem value_fail (e : SimplifyError) : (fail e : Logged α).value = .error e := rfl

@[simp] theorem value_note (e : Event) : (note e).value = .ok () := rfl

/-- The value of two steps in a row. -/
@[simp] theorem value_bind (x : Logged α) (f : α → Logged β) :
    (x >>= f).value = x.value.bind fun a => (f a).value := by
  change (andThen x f).value = _
  unfold andThen
  cases x.value <;> rfl

/-- Two steps in a row give a value exactly when both do. -/
theorem value_bind_eq_ok {x : Logged α} {f : α → Logged β} {b : β} :
    (x >>= f).value = .ok b ↔ ∃ a, x.value = .ok a ∧ (f a).value = .ok b := by
  rw [value_bind]
  cases x.value <;> simp [Except.bind]

end Logged

end Reckoner
