import Reckoner.Proofs.Simplify.Normal
import Reckoner.Proofs.Simplify.Termination

/-!
# Why simplification fails

A simplification may fail because a number is beyond the doubles, because a product came out that
has no factor, or because it ran out of depth. It never runs out of depth, and a product without
factors can only come out if there was one to begin with, or an extension goes by the name of
products.
-/

namespace Reckoner

/-! ## Products with factors -/

namespace Expr

/-- Every product in the expression has a factor. -/
def IsFilled (e : Expr) : Prop := e.EveryNode fun op ps => op.name = Operator.multiply.name → ps ≠ []

end Expr

/-! ## Composition -/

namespace Logged

variable {α β : Type} {Q : α → Prop} {R : β → Prop} {x : Logged α}

/-- The step does not fail for want of a factor, and its value has `Q`. -/
def Sure (x : Logged α) (Q : α → Prop) : Prop :=
  x.value ≠ .error .emptyProduct ∧ ∀ a, x.value = .ok a → Q a

/-- The second step may rely on what the first one gives. -/
theorem Sure.bind {f : α → Logged β} (hx : x.Sure Q) (hf : ∀ a, Q a → (f a).Sure R) :
    (x >>= f).Sure R := by
  obtain ⟨hne, hQ⟩ := hx
  unfold Sure
  rw [value_bind]
  cases hv : x.value with
  | error e =>
    rw [hv] at hne
    exact ⟨by simpa [Except.bind] using hne, fun _ ha => by cases ha⟩
  | ok a => exact hf a (hQ a hv)

end Logged

namespace Simplify

open Logged Reckoner.Expr

variable {op : Operator} {l r : Expr} {reduce : Reducer} {combine : Combiner}

/-- What may become of two operands: nothing, or something of which every product has a factor. -/
def Filled (o : Option Expr) : Prop := ∀ e ∈ o, e.IsFilled

@[simp] theorem filled_none : Filled none := by simp [Filled]

@[simp] theorem filled_some {e : Expr} : Filled (some e) ↔ e.IsFilled := by simp [Filled]

/-- The simplifier of applications wants for no factor if its parameters do not. -/
def ReducerFills (f : Reducer) : Prop :=
  ∀ (op : Operator) (ps : List Expr), op.IsOrdinary → (∀ p ∈ ps, p.IsFilled) →
    (f op ps).Sure IsFilled

theorem ReducerFills.pair (hf : ReducerFills reduce) (hop : op.IsArithmetic) {a b : Expr}
    (ha : a.IsFilled) (hb : b.IsFilled) : (reduce op [a, b]).Sure IsFilled :=
  hf op [a, b] hop.isOrdinary (by simp [ha, hb])

end Simplify

end Reckoner
