import Reckoner.Proofs.Evaluation

/-!
# Calculations that agree

Two runs of one calculation agree if they start from related registries and have the same value, the
same trace and related registries again. `Calculation.Agrees` is the rule of composition for such
statements, for any relation. An expression without definitions leaves the registries as they were,
and an independent one, without stored variables as well, agrees on any two states of them.
-/

namespace Reckoner

/-! ## Agreement -/

/-- The two outcomes have the same value, the same trace and registries with `A`, and the value
has `Q`. -/
structure Outcome.Alike {α : Type} (A : Stores → Stores → Prop) (Q : α → Prop)
    (o o' : Outcome α) : Prop where
  value : o.value = o'.value
  trace : o.trace = o'.trace
  stores : A o.stores o'.stores
  result : ∀ a, o.value = .ok a → Q a

namespace Calculation

variable {α β : Type} {A : Stores → Stores → Prop} {Q : α → Prop} {R : β → Prop}

/-- From registries with `A` the outcomes are alike. -/
def Agrees (A : Stores → Stores → Prop) (x : Calculation α) (Q : α → Prop) : Prop :=
  ∀ s s', A s s' → Outcome.Alike A Q (x s) (x s')

theorem Agrees.pure {a : α} (h : Q a) : Agrees A (Pure.pure a : Calculation α) Q := by
  intro s s' hs
  refine ⟨rfl, rfl, hs, fun b hb => ?_⟩
  rw [pure_apply, Except.ok.injEq] at hb
  exact hb ▸ h

theorem Agrees.fail {e : CalculationError} : Agrees A (Calculation.fail e : Calculation α) Q := by
  intro s s' hs
  exact ⟨rfl, rfl, hs, fun b hb => by simp at hb⟩

/-- The second part starts from related registries because the first one ends in them. -/
theorem Agrees.bind {x : Calculation α} {f : α → Calculation β} (hx : Agrees A x Q)
    (hf : ∀ a, Q a → Agrees A (f a) R) : Agrees A (x >>= f) R := by
  intro s s' hs
  obtain ⟨hvalue, htrace, hstores, hQ⟩ := hx s s' hs
  cases hv : (x s).value with
  | error e =>
    have hv' : (x s').value = .error e := hvalue.symm.trans hv
    rw [bind_of_error hv, bind_of_error hv']
    exact ⟨rfl, htrace, hstores, fun b hb => by simp at hb⟩
  | ok a =>
    have hv' : (x s').value = .ok a := hvalue.symm.trans hv
    obtain ⟨hvalue', htrace', hstores', hR⟩ := hf a (hQ a hv) _ _ hstores
    rw [bind_of_ok hv, bind_of_ok hv', htrace, htrace']
    exact ⟨hvalue', rfl, hstores', hR⟩

theorem logic_agrees : Logic (Agrees A) := ⟨Agrees.pure, fun _ => Agrees.fail, Agrees.bind⟩

theorem Agrees.note {e : Event} : Agrees A (Calculation.note e) fun _ => True :=
  fun _ _ hs => ⟨rfl, rfl, hs, fun _ _ => trivial⟩

theorem Agrees.ofLogged {x : Logged α} (h : ∀ a, x.value = .ok a → Q a) :
    Agrees A (Calculation.ofLogged x) Q := by
  intro s s' hs
  exact ⟨rfl, rfl, hs, fun a ha => h a (mapError_eq_ok.1 ha)⟩

theorem Agrees.mapError {x : Calculation α} {f : CalculationError → CalculationError}
    (hx : Agrees A x Q) : Agrees A (x.mapError f) Q := by
  intro s s' hs
  obtain ⟨hvalue, htrace, hstores, hQ⟩ := hx s s' hs
  refine ⟨?_, htrace, hstores, fun a ha => hQ a (mapError_eq_ok.1 ha)⟩
  exact congrArg (Except.mapError f) hvalue

/-- Registries that agree wherever `A` says so are read alike. -/
theorem Agrees.registry {id : StoreId} {Q : Registry → Prop}
    (h : ∀ s s', A s s' → s.registry id = s'.registry id ∧ Q (s.registry id)) :
    Agrees A (Calculation.registry id) Q := by
  intro s s' hs
  obtain ⟨heq, hQ⟩ := h s s' hs
  refine ⟨congrArg Except.ok heq, rfl, hs, fun r hr => ?_⟩
  cases hr
  exact hQ

theorem Agrees.put {id : StoreId} {r : Registry}
    (h : ∀ s s', A s s' → A (s.put id r) (s'.put id r)) :
    Agrees A (Calculation.put id r) fun _ => True :=
  fun s s' hs => ⟨rfl, rfl, h s s' hs, fun _ _ => trivial⟩

end Calculation

/-! ## Expressions without definitions -/

/-- The operator is a definition. -/
def Operator.isDefinition : Operator → Bool
  | .define _ => true
  | _ => false

theorem Operator.isDefinition_eq_false (op : Operator) :
    op.isDefinition = false ↔ ∀ id, op ≠ .define id := by
  cases op <;> simp [isDefinition]

/-- Everything but definitions. -/
def Material.bindless : Material where
  number _ := True
  symbol _ _ := True
  operator op := ∀ id, op ≠ .define id

/-- Everything but stored variables and definitions. -/
def Material.independent : Material where
  number _ := True
  symbol _ role := ∀ id, role ≠ .stored id
  operator op := ∀ id, op ≠ .define id

/-- Without definitions nothing is stored, so the registries stay exactly as they are. -/
theorem Material.yields_bindless (s : Stores) : Material.bindless.Yields (· = s) fun _ => True where
  number _ := trivial
  symbol _ _ := trivial
  stored _ _ := trivial
  bound hdef := absurd rfl (hdef _)
  reduce _ _ _ _ := trivial

namespace Expr

open Calculation

/-- The expression binds no variable. -/
def IsBindless (e : Expr) : Prop := e.MadeOf .bindless

instance (e : Expr) : Decidable e.IsBindless :=
  have (n : Number) : Decidable (Material.bindless.number n) := .isTrue trivial
  have (name : String) (role : Role) : Decidable (Material.bindless.symbol name role) :=
    .isTrue trivial
  have (op : Operator) : Decidable (Material.bindless.operator op) :=
    decidable_of_iff _ op.isDefinition_eq_false
  decidableMadeOf e

/-- The expression neither looks a variable up nor binds one. -/
def IsIndependent (e : Expr) : Prop := e.MadeOf .independent

theorem isIndependent_free (name : String) : (Expr.free name).IsIndependent :=
  madeOf_sym.2 fun _ h => by cases h

variable {e : Expr}

theorem IsIndependent.isBindless (he : e.IsIndependent) : e.IsBindless := by
  have hmade : e.MadeOf .independent := he
  show e.MadeOf .bindless
  refine hmade.mono ?_ ?_ ?_
  · exact fun _ h => h
  · exact fun _ _ _ => trivial
  · exact fun _ h => h

/-- An expression without definitions changes no registry, even if its evaluation fails. -/
theorem IsBindless.keeps (he : e.IsBindless) (depth : Nat) (s : Stores) :
    Keeps (· = s) (e.evaluateWithin depth) fun _ => True :=
  keeps_evaluateWithin (Material.yields_bindless s) depth e he

/-- From any registries an independent expression has the same value. -/
theorem IsIndependent.agrees (he : e.IsIndependent) :
    Agrees (fun _ _ => True) e.evaluate fun _ => True :=
  have hruns : Material.independent.Runs (Agrees fun _ _ => True) fun _ => True :=
    { logic := logic_agrees
      number := fun _ => trivial
      symbol := fun {name role} hrole => by
        cases role with
        | stored id => exact absurd rfl (hrole id)
        | free => exact Agrees.pure trivial
        | operator op => exact Agrees.pure trivial
      assign := fun hdef _ => absurd rfl (hdef _)
      reduce := fun _ _ _ => Agrees.ofLogged fun _ _ => trivial }
  hruns.evaluateWithin maxDepth e he

end Expr

namespace Calculator

open Calculation

variable {e : Expr}

/-- Evaluating an expression without definitions leaves the registries as they were. -/
theorem keeps_evaluate_of_isBindless (he : e.IsBindless) (c : Calculator) (s : Stores) :
    Keeps (· = s) (c.evaluate e) fun _ => True :=
  (he.keeps Expr.maxDepth s).mapError.bind fun _ _ => Keeps.note.bind fun _ _ => Keeps.pure trivial

/-- The outcome for an independent expression depends neither on the calculator nor on the
registries, which stay as they are. -/
theorem evaluate_of_isIndependent (he : e.IsIndependent) (c c' : Calculator) (s s' : Stores) :
    c.evaluate e s = { c'.evaluate e s' with stores := s } := by
  have hagrees : Agrees (fun _ _ => True) (c.evaluate e) fun _ => True :=
    he.agrees.mapError.bind fun _ _ => Agrees.note.bind fun _ _ => Agrees.pure trivial
  obtain ⟨hvalue, htrace, -, -⟩ := hagrees s s' trivial
  have hstores : (c.evaluate e s).stores = s :=
    (keeps_evaluate_of_isBindless he.isBindless c s s rfl).1
  calc
    c.evaluate e s
      = ⟨(c.evaluate e s).value, (c.evaluate e s).stores, (c.evaluate e s).trace⟩ := rfl
    _ = ⟨(c'.evaluate e s').value, s, (c'.evaluate e s').trace⟩ := by
      rw [hvalue, htrace, hstores]
      rfl

end Calculator

end Reckoner
