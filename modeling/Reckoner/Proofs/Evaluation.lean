import Reckoner.Calculator
import Reckoner.Proofs.Simplify.Material

/-!
# What evaluation keeps

A property of values that the leaves have and that simplification hands on is a property of every
value, as long as the registries give such values for their variables: evaluation only looks
variables up, and what a definition binds is a value itself. `Calculation.Keeps` is the rule of
composition for such statements. It speaks about failures as well, since what was bound before a
failure stays bound.

The induction over the expression is done once, for every judgement `H` about calculations that
composition hands on (`Calculation.LogicFor`), and `Keeps` is one of them. `Calculation.Ends` is
another one: it also says which errors there can be.
-/

namespace Reckoner

/-! ## Calculations -/

namespace Calculation

/-- A judgement about calculations and their values that composition hands on, and that failures
with an error of `E` have. -/
structure LogicFor (E : CalculationError → Prop)
    (H : {α : Type} → Calculation α → (α → Prop) → Prop) : Prop where
  /-- Values. -/
  pure : ∀ {α : Type} {a : α} {Q : α → Prop}, Q a → H (Pure.pure a) Q
  /-- Failures. -/
  fail : ∀ {α : Type} {e : CalculationError} {Q : α → Prop}, E e → H (Calculation.fail e) Q
  /-- Two calculations in a row. -/
  bind : ∀ {α β : Type} {x : Calculation α} {f : α → Calculation β} {Q : α → Prop} {R : β → Prop},
    H x Q → (∀ a, Q a → H (f a) R) → H (x >>= f) R

/-- An outcome that is known already is judged by what it is, a result or an allowed error. -/
theorem LogicFor.ofExcept {E : CalculationError → Prop}
    {H : {α : Type} → Calculation α → (α → Prop) → Prop} (hH : LogicFor E H)
    {α ε : Type} {f : ε → CalculationError} {x : Except ε α} {Q : α → Prop}
    (hok : ∀ a, x = .ok a → Q a) (herror : ∀ e, x = .error e → E (f e)) :
    H (Calculation.ofExcept f x) Q := by
  cases x with
  | ok a => exact hH.pure (hok a rfl)
  | error e => exact hH.fail (herror e rfl)

/-- A judgement that composition hands on and every failure has, whatever its error. -/
abbrev Logic (H : {α : Type} → Calculation α → (α → Prop) → Prop) : Prop :=
  LogicFor (fun _ => True) H

theorem Logic.ofExcept {H : {α : Type} → Calculation α → (α → Prop) → Prop} (hH : Logic H)
    {α ε : Type} {f : ε → CalculationError} {x : Except ε α} {Q : α → Prop}
    (h : ∀ a, x = .ok a → Q a) : H (Calculation.ofExcept f x) Q :=
  LogicFor.ofExcept hH h fun _ _ => trivial

variable {α β : Type} {S : Stores → Prop} {Q : α → Prop} {R : β → Prop}

/-- From registries with `S` the calculation leaves registries with `S`, even where it fails, and
its value has `Q`. -/
def Keeps (S : Stores → Prop) (x : Calculation α) (Q : α → Prop) : Prop :=
  ∀ s, S s → S (x s).stores ∧ ∀ a, (x s).value = .ok a → Q a

theorem Keeps.pure {a : α} (h : Q a) : Keeps S (Pure.pure a : Calculation α) Q := by
  intro s hs
  refine ⟨hs, fun b hb => ?_⟩
  rw [pure_apply, Except.ok.injEq] at hb
  exact hb ▸ h

theorem Keeps.fail {e : CalculationError} : Keeps S (Calculation.fail e : Calculation α) Q := by
  intro s hs
  exact ⟨hs, fun b hb => by simp at hb⟩

/-- What the first part hands on is all that the second part needs to know about its result. -/
theorem Keeps.bind {x : Calculation α} {f : α → Calculation β} (hx : Keeps S x Q)
    (hf : ∀ a, Q a → Keeps S (f a) R) : Keeps S (x >>= f) R := by
  intro s hs
  obtain ⟨hs', hQ⟩ := hx s hs
  cases hv : (x s).value with
  | error e =>
    rw [bind_of_error hv]
    exact ⟨hs', fun b hb => by simp at hb⟩
  | ok a =>
    rw [bind_of_ok hv]
    exact hf a (hQ a hv) _ hs'

theorem Keeps.mono {Q' : α → Prop} {x : Calculation α} (hx : Keeps S x Q)
    (h : ∀ a, Q a → Q' a) : Keeps S x Q' := by
  intro s hs
  obtain ⟨hs', hQ⟩ := hx s hs
  exact ⟨hs', fun a ha => h a (hQ a ha)⟩

theorem Keeps.note {e : Event} : Keeps S (Calculation.note e) fun _ => True :=
  fun _ hs => ⟨hs, fun _ _ => trivial⟩

theorem Keeps.registry {id : StoreId} {Q : Registry → Prop} (h : ∀ s, S s → Q (s.registry id)) :
    Keeps S (Calculation.registry id) Q := by
  intro s hs
  refine ⟨hs, fun r hr => ?_⟩
  cases hr
  exact h s hs

theorem Keeps.put {id : StoreId} {r : Registry} (h : ∀ s, S s → S (s.put id r)) :
    Keeps S (Calculation.put id r) fun _ => True :=
  fun s hs => ⟨h s hs, fun _ _ => trivial⟩

theorem logic_keeps : Logic (Keeps S) := ⟨Keeps.pure, fun _ => Keeps.fail, Keeps.bind⟩

theorem Keeps.ofExcept {ε : Type} {f : ε → CalculationError} {x : Except ε α}
    (h : ∀ a, x = .ok a → Q a) : Keeps S (Calculation.ofExcept f x) Q :=
  logic_keeps.ofExcept h

theorem mapError_eq_ok {ε ε' : Type} {f : ε → ε'} {x : Except ε α} {a : α} :
    x.mapError f = .ok a ↔ x = .ok a := by
  cases x with
  | error e =>
    show (Except.error (f e) : Except ε' α) = .ok a ↔ _
    simp
  | ok b =>
    show (Except.ok b : Except ε' α) = .ok a ↔ _
    simp

theorem Keeps.ofLogged {x : Logged α} (h : ∀ a, x.value = .ok a → Q a) :
    Keeps S (Calculation.ofLogged x) Q := by
  intro s hs
  exact ⟨hs, fun a ha => h a (mapError_eq_ok.1 ha)⟩

theorem Keeps.mapError {x : Calculation α} {f : CalculationError → CalculationError}
    (hx : Keeps S x Q) : Keeps S (x.mapError f) Q := by
  intro s hs
  obtain ⟨hs', hQ⟩ := hx s hs
  exact ⟨hs', fun a ha => hQ a (mapError_eq_ok.1 ha)⟩

/-! ### Errors -/

variable {E : CalculationError → Prop}

/-- Of two calculations in a row the first one fails, or it succeeds and the second one fails. -/
theorem value_bind_eq_error {x : Calculation α} {f : α → Calculation β} {s : Stores}
    {e : CalculationError} : ((x >>= f) s).value = .error e ↔ (x s).value = .error e ∨
      ∃ a, (x s).value = .ok a ∧ (f a (x s).stores).value = .error e := by
  cases hv : (x s).value with
  | error e' =>
    rw [bind_of_error hv]
    simp
  | ok a =>
    rw [bind_of_ok hv]
    simp

theorem mapError_eq_error {ε ε' : Type} {f : ε → ε'} {x : Except ε α} {e' : ε'} :
    x.mapError f = .error e' ↔ ∃ e, x = .error e ∧ f e = e' := by
  cases x with
  | error e =>
    show (Except.error (f e) : Except ε' α) = .error e' ↔ _
    simp
  | ok a =>
    show (Except.ok a : Except ε' α) = .error e' ↔ _
    simp

/-- From registries with `S` the calculation gives a value with `Q` or fails with an error of `E`,
and either way it leaves registries with `S`. -/
structure Ends (S : Stores → Prop) (E : CalculationError → Prop) (x : Calculation α)
    (Q : α → Prop) : Prop where
  keeps : Keeps S x Q
  fails : ∀ s, S s → ∀ e, (x s).value = .error e → E e

theorem Ends.pure {a : α} (h : Q a) : Ends S E (Pure.pure a : Calculation α) Q :=
  ⟨Keeps.pure h, fun _ _ _ he => by cases he⟩

theorem Ends.fail {e : CalculationError} (h : E e) :
    Ends S E (Calculation.fail e : Calculation α) Q := by
  refine ⟨Keeps.fail, fun s _ e' he' => ?_⟩
  rw [fail_apply, Except.error.injEq] at he'
  exact he' ▸ h

/-- A calculation in two parts ends in the errors of its parts and in no other. -/
theorem Ends.bind {x : Calculation α} {f : α → Calculation β} (hx : Ends S E x Q)
    (hf : ∀ a, Q a → Ends S E (f a) R) : Ends S E (x >>= f) R := by
  refine ⟨hx.keeps.bind fun a ha => (hf a ha).keeps, fun s hs e he => ?_⟩
  obtain ⟨hs', hQ⟩ := hx.keeps s hs
  rcases value_bind_eq_error.1 he with he | ⟨a, ha, he⟩
  · exact hx.fails s hs e he
  · exact (hf a (hQ a ha)).fails _ hs' e he

theorem logicFor_ends : LogicFor E (Ends S E) := ⟨Ends.pure, Ends.fail, Ends.bind⟩

theorem Ends.ofLogged {x : Logged α} (hok : ∀ a, x.value = .ok a → Q a)
    (herror : ∀ e, x.value = .error e → E (.ofSimplify e)) :
    Ends S E (Calculation.ofLogged x) Q := by
  refine ⟨Keeps.ofLogged hok, fun s _ e he => ?_⟩
  obtain ⟨e', he', rfl⟩ := mapError_eq_error.1 he
  exact herror e' he'

end Calculation

/-! ## Evaluation -/

/-- The judgement gives `P` for the leaves of the material, for what its definitions bind, and for
what applications of its other operators are simplified to, and `E` has the errors that evaluation
itself comes to. Where every error is allowed, nothing has to be said about them. -/
structure Material.RunsFor (M : Material) (E : CalculationError → Prop)
    (H : {α : Type} → Calculation α → (α → Prop) → Prop) (P : Expr → Prop) : Prop where
  /-- Composition hands the judgement on. -/
  logic : Calculation.LogicFor E H
  /-- A definition may be rejected. -/
  definition : ∀ e, E (.definition e) := by intros; trivial
  /-- Applications may be nested too deeply. -/
  tooDeep : E (.fault .tooDeep) := by trivial
  /-- A target that is rejected is written. -/
  unwritable : ∀ {e : Expr} {err}, e.MadeOf M → e.render = .error err → E (.ofText err) := by
    intros; trivial
  /-- Numbers evaluate to themselves. -/
  number : ∀ {n}, M.number n → P (.num n)
  /-- Symbols may be looked up. -/
  symbol : ∀ {name role}, M.symbol name role → H (Expr.symbolValue name role) P
  /-- A definition binds a value. -/
  assign : ∀ {id name value}, M.operator (.define id) → P value →
    H (Expr.assign id name value) fun _ => True
  /-- Other applications are simplified. -/
  reduce : ∀ {op ps}, M.operator op → (∀ id, op ≠ .define id) → (∀ p ∈ ps, P p) →
    H (Calculation.ofLogged (Simplify.reduce op ps)) P

namespace Material.RunsFor

open Reckoner.Expr

variable {M : Material} {E : CalculationError → Prop}
  {H : {α : Type} → Calculation α → (α → Prop) → Prop} {P : Expr → Prop}

/-- The name that a definition assigns is judged by whether its target has a text. -/
theorem targetName (h : M.RunsFor E H P) {target : Expr}
    (hwritten : ∀ err, target.render = .error err → E (.ofText err)) :
    H (targetName target) fun _ => True := by
  have hrefused : H (do
      let text ← Calculation.ofExcept .ofText target.render
      Calculation.fail (.definition (.notAssignable text)) : Calculation String) fun _ => True :=
    h.logic.bind (Q := fun _ => True) (h.logic.ofExcept (fun _ _ => trivial) hwritten)
      fun _ _ => h.logic.fail (h.definition _)
  cases target with
  | sym name role => exact h.logic.pure trivial
  | num n => exact hrefused
  | app op ps => exact hrefused

mutual

/-- What the judgement says of leaves, calls and definitions it says of every expression. -/
theorem evaluateWithin (h : M.RunsFor E H P) : (depth : Nat) → (e : Expr) → e.MadeOf M →
    H (evaluateWithin depth e) P
  | _, .num n, he => by
    rw [Expr.evaluateWithin]
    exact h.logic.pure (h.number (madeOf_num.1 he))
  | _, .sym name role, he => by
    rw [Expr.evaluateWithin]
    exact h.symbol (madeOf_sym.1 he)
  | 0, .app op ps, _ => by
    by_cases hop : ∃ id, op = .define id
    · obtain ⟨id, rfl⟩ := hop
      rw [Expr.evaluateWithin]
      exact h.logic.fail h.tooDeep
    · rw [Expr.evaluateWithin]
      · exact h.logic.fail h.tooDeep
      · exact fun id hid => hop ⟨id, hid⟩
  | depth + 1, .app op ps, he => by
    rw [madeOf_app] at he
    by_cases hop : ∃ id, op = .define id
    · obtain ⟨id, rfl⟩ := hop
      rw [Expr.evaluateWithin]
      exact evaluateDefinition h depth id he.1 ps he.2
    · -- parameters first, and then the application of what they came to
      have hproper : ∀ id, op ≠ .define id := fun id hid => hop ⟨id, hid⟩
      rw [Expr.evaluateWithin]
      · refine h.logic.bind (evaluateList h depth ps he.2) fun args hargs => ?_
        exact h.reduce he.1 hproper hargs
      · exact hproper

theorem evaluateList (h : M.RunsFor E H P) : (depth : Nat) → (ps : List Expr) →
    (∀ p ∈ ps, p.MadeOf M) → H (evaluateList depth ps) fun args => ∀ a ∈ args, P a
  | _, [], _ => by
    rw [Expr.evaluateList]
    exact h.logic.pure (by simp)
  | depth, p :: ps, hps => by
    rw [Expr.evaluateList]
    rw [List.forall_mem_cons] at hps
    refine h.logic.bind (evaluateWithin h depth p hps.1) fun value hvalue => ?_
    refine h.logic.bind (evaluateList h depth ps hps.2) fun args hargs => ?_
    exact h.logic.pure (List.forall_mem_cons.2 ⟨hvalue, hargs⟩)

/-- A definition is its arguments and then the assignment, each judged on its own. -/
theorem evaluateDefinition (h : M.RunsFor E H P) : (depth : Nat) → (id : StoreId) →
    M.operator (.define id) → (ps : List Expr) → (∀ p ∈ ps, p.MadeOf M) →
    H (evaluateDefinition depth id ps) P
  | depth, id, hdef, [target, e], hps => by
    have htarget : target.MadeOf M := hps target (by simp)
    have he : e.MadeOf M := hps e (by simp)
    rw [Expr.evaluateDefinition]
    refine h.logic.bind (h.targetName fun _ => h.unwritable htarget) fun name _ => ?_
    refine h.logic.bind (evaluateWithin h depth e he) fun value hvalue => ?_
    exact h.logic.bind (h.assign hdef hvalue) fun _ _ => h.logic.pure hvalue
  | _, _, _, [], _ => h.logic.fail (h.definition _)
  | _, _, _, [_], _ => h.logic.fail (h.definition _)
  | _, _, _, _ :: _ :: _ :: _, _ => h.logic.fail (h.definition _)

end

end Material.RunsFor

/-- The judgement gives `P` for the material, and every error is allowed. -/
abbrev Material.Runs (M : Material) (H : {α : Type} → Calculation α → (α → Prop) → Prop)
    (P : Expr → Prop) : Prop := M.RunsFor (fun _ => True) H P

/-- The leaves of the material have `P` once they are evaluated on registries with `S`, what its
definitions bind leaves registries with `S`, and simplification hands `P` on to applications of its
operators. -/
structure Material.Yields (M : Material) (S : Stores → Prop) (P : Expr → Prop) : Prop where
  /-- Numbers evaluate to themselves. -/
  number : ∀ {n}, M.number n → P (.num n)
  /-- Free variables and the names of operators evaluate to themselves. -/
  symbol : ∀ {name role}, M.symbol name role → (∀ id, role ≠ .stored id) → P (.sym name role)
  /-- A stored variable evaluates to its value, or to a free variable. -/
  stored : ∀ {name id s}, M.symbol name (.stored id) → S s →
    P (((s.registry id).bindings.get? name).getD (.free name))
  /-- A definition binds a value. -/
  bound : ∀ {id s name value r}, M.operator (.define id) → S s → P value →
    (s.registry id).define name value = .ok r → S (s.put id r)
  /-- Other applications are simplified. -/
  reduce : ∀ {op ps e}, M.operator op → (∀ id, op ≠ .define id) → (∀ p ∈ ps, P p) →
    (Simplify.reduce op ps).value = .ok e → P e

variable {S : Stores → Prop} {P : Expr → Prop}

namespace Expr

open Calculation

variable {M : Material}

theorem keeps_symbolValue (hM : M.Yields S P) {name : String} {role : Role}
    (h : M.symbol name role) : Keeps S (symbolValue name role) P := by
  unfold symbolValue
  split
  · next id =>
    refine Keeps.bind
      (Keeps.registry (Q := fun r => P ((r.bindings.get? name).getD (.free name))) fun s hs => ?_)
      fun r hr => Keeps.pure hr
    exact hM.stored h hs
  · next hrole => exact Keeps.pure (hM.symbol h hrole)

/-- An assignment stores the registry that the definition gives, or fails and leaves the stores as
they are. -/
theorem assign_apply (id : StoreId) (name : String) (value : Expr) (s : Stores) :
    assign id name value s =
      match (s.registry id).define name value with
      | .ok r => ⟨.ok (), s.put id r, .one (.defined name value)⟩
      | .error e => ⟨.error (.definition e), s, .empty⟩ := by
  have hreg : (Calculation.registry id s).value = .ok (s.registry id) := rfl
  unfold assign
  rw [bind_of_ok hreg]
  cases h : (s.registry id).define name value with
  | error e => rfl
  | ok r => rfl

theorem keeps_assign {id : StoreId} {name : String} {value : Expr}
    (h : ∀ s r, S s → (s.registry id).define name value = .ok r → S (s.put id r)) :
    Keeps S (assign id name value) fun _ => True := by
  intro s hs
  rw [assign_apply]
  cases hdef : (s.registry id).define name value with
  | error e => exact ⟨hs, fun _ _ => trivial⟩
  | ok r => exact ⟨h s r hs hdef, fun _ _ => trivial⟩

/-- A material whose variables and definitions have the property is all that `Keeps` asks for. -/
theorem runs_keeps (hM : M.Yields S P) : M.Runs (Keeps S) P where
  logic := logic_keeps
  number := hM.number
  symbol := keeps_symbolValue hM
  assign hdef hvalue := keeps_assign fun _ _ hs hr => hM.bound hdef hs hvalue hr
  reduce hop hproper hps := Keeps.ofLogged fun _ hr => hM.reduce hop hproper hps hr

/-- Which errors a registry and the simplifier come to is left open. -/
theorem runsFor_ends {E : CalculationError → Prop} (hM : M.Yields S P)
    (hdefinition : ∀ e, E (.definition e)) (htooDeep : E (.fault .tooDeep))
    (hunwritable : ∀ {e : Expr} {err}, e.MadeOf M → e.render = .error err → E (.ofText err))
    (hreduce : ∀ {op ps e}, M.operator op → (∀ id, op ≠ .define id) → (∀ p ∈ ps, P p) →
      (Simplify.reduce op ps).value = .error e → E (.ofSimplify e)) :
    M.RunsFor E (Ends S E) P where
  logic := logicFor_ends
  definition := hdefinition
  tooDeep := htooDeep
  unwritable := hunwritable
  number := hM.number
  symbol {name role} h := by
    refine ⟨keeps_symbolValue hM h, fun s _ e he => ?_⟩
    cases role <;> cases he
  assign {id name value} hdef hvalue := by
    refine ⟨keeps_assign fun _ _ hs hr => hM.bound hdef hs hvalue hr, fun s _ e he => ?_⟩
    rw [assign_apply] at he
    split at he
    · cases he
    · cases he
      exact hdefinition _
  reduce hop hproper hps :=
    Ends.ofLogged (fun _ hr => hM.reduce hop hproper hps hr) fun _ he => hreduce hop hproper hps he

/-- Within every nesting, an expression of the material has a value with the property, if any. -/
theorem keeps_evaluateWithin (hM : M.Yields S P) (depth : Nat) (e : Expr) (he : e.MadeOf M) :
    Keeps S (evaluateWithin depth e) P :=
  (runs_keeps hM).evaluateWithin depth e he

/-- The value of an expression has `P`. -/
theorem keeps_evaluate (hM : M.Yields S P) {e : Expr} (h : e.MadeOf M) :
    Keeps S e.evaluate P :=
  keeps_evaluateWithin hM maxDepth e h

end Expr

end Reckoner
