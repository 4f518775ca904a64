import Reckoner.Registry
import Reckoner.Simplify.Basic

/-!
# Calculations

A calculation runs on the registries, may change them, leaves a trace, and gives a value or fails.
What it did to the registries before it failed stays done. As with the simplifier, neither the value
nor the registries depend on the trace.
-/

namespace Reckoner

/-- A failure that is not reported as an error message of the calculator. -/
inductive Fault where
  /-- An exact number is beyond the finite doubles. -/
  | beyondDouble
  /-- A product came out that has no factor to look at. -/
  | emptyProduct
  /-- An integer has too many digits to be written. -/
  | tooLong
  /-- An expression is nested too deeply. -/
  | tooDeep
  /-- The simplifier was not allotted enough depth. -/
  | unfinished
  deriving DecidableEq

/-- Why a calculation has no result. -/
inductive CalculationError where
  /-- The text is not an expression. -/
  | reading (e : SyntaxError)
  /-- A definition is rejected. -/
  | definition (e : DefinitionError)
  /-- The expression is nested too deeply to be evaluated. -/
  | tooDeepToEvaluate
  /-- The expression is nested too deeply to be written. -/
  | tooDeepToRender
  /-- Something that is not reported as a message. -/
  | fault (f : Fault)
  deriving DecidableEq

namespace CalculationError

/-- The error as it is reported; a fault has no message. -/
def message? : CalculationError → Option String
  | reading e => some e.message
  | definition e => some e.message
  | tooDeepToEvaluate => some "Expression nested too deeply to evaluate"
  | tooDeepToRender => some "Expression nested too deeply to render"
  | fault _ => none

/-- The fault behind a failed simplification. -/
def ofSimplify : SimplifyError → CalculationError
  | .beyondDouble => fault .beyondDouble
  | .emptyProduct => fault .emptyProduct
  | .unfinished => fault .unfinished

/-- The fault behind an expression that cannot be written. -/
def ofText : Expr.TextError → CalculationError
  | .tooDeep => fault .tooDeep
  | .tooLong => fault .tooLong

end CalculationError

/-- What a calculation comes to. -/
structure Outcome (α : Type) where
  /-- The value or the failure. -/
  value : Except CalculationError α
  /-- The registries afterwards. -/
  stores : Stores
  /-- What happened. -/
  trace : Trace

/-- Something that runs on the registries. -/
def Calculation (α : Type) := Stores → Outcome α

namespace Calculation

variable {α β : Type}

/-- A value, with nothing done. -/
def done (a : α) : Calculation α := fun s => ⟨.ok a, s, .empty⟩

/-- A failure, with nothing done. -/
def fail (e : CalculationError) : Calculation α := fun s => ⟨.error e, s, .empty⟩

/-- First one calculation and then, on its value and the registries it leaves, another. -/
def andThen (x : Calculation α) (f : α → Calculation β) : Calculation β := fun s =>
  match x s with
  | ⟨.error e, s, t⟩ => ⟨.error e, s, t⟩
  | ⟨.ok a, s, t⟩ =>
    let o := f a s
    ⟨o.value, o.stores, t ++ o.trace⟩

instance : Monad Calculation where
  pure := done
  bind := andThen

/-- An event. -/
def note (e : Event) : Calculation Unit := fun s => ⟨.ok (), s, .one e⟩

/-- A registry as it is now. -/
def registry (id : StoreId) : Calculation Registry := fun s => ⟨.ok (s.registry id), s, .empty⟩

/-- Replaces a registry. -/
def put (id : StoreId) (r : Registry) : Calculation Unit := fun s => ⟨.ok (), s.put id r, .empty⟩

/-- A value that may have failed already. -/
def ofExcept {ε : Type} (f : ε → CalculationError) : Except ε α → Calculation α
  | .ok a => done a
  | .error e => fail (f e)

/-- A simplification, which does not touch the registries. -/
def ofLogged (x : Logged α) : Calculation α := fun s =>
  ⟨x.value.mapError .ofSimplify, s, x.trace⟩

/-- Replaces some failures by others. -/
def mapError (f : CalculationError → CalculationError) (x : Calculation α) : Calculation α :=
  fun s =>
    let o := x s
    ⟨o.value.mapError f, o.stores, o.trace⟩

/-- A failure that has a message, as a value. -/
def reported (x : Calculation α) : Calculation (Except String α) := fun s =>
  match x s with
  | ⟨.ok a, s, t⟩ => ⟨.ok (.ok a), s, t⟩
  | ⟨.error e, s, t⟩ =>
    match e.message? with
    | some message => ⟨.ok (.error message), s, t⟩
    | none => ⟨.error e, s, t⟩

@[simp] theorem pure_apply (a : α) (s : Stores) :
    (pure a : Calculation α) s = ⟨.ok a, s, .empty⟩ := rfl

@[simp] theorem fail_apply (e : CalculationError) (s : Stores) :
    (fail e : Calculation α) s = ⟨.error e, s, .empty⟩ := rfl

/-- A calculation that fails is not followed by another. -/
theorem bind_of_error {x : Calculation α} {f : α → Calculation β} {s : Stores}
    {e : CalculationError} (h : (x s).value = .error e) :
    (x >>= f) s = ⟨.error e, (x s).stores, (x s).trace⟩ := by
  change andThen x f s = _
  unfold andThen
  generalize x s = o at h ⊢
  obtain ⟨v, s', t⟩ := o
  subst h; rfl

/-- A calculation that succeeds is followed by the next, on the registries it leaves. -/
theorem bind_of_ok {x : Calculation α} {f : α → Calculation β} {s : Stores} {a : α}
    (h : (x s).value = .ok a) :
    (x >>= f) s = ⟨(f a (x s).stores).value, (f a (x s).stores).stores,
      (x s).trace ++ (f a (x s).stores).trace⟩ := by
  change andThen x f s = _
  unfold andThen
  generalize x s = o at h ⊢
  obtain ⟨v, s', t⟩ := o
  subst h; rfl

end Calculation

end Reckoner
