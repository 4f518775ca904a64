import Reckoner.Proofs.Evaluation

/-!
# What calculators do

Reading a text changes nothing; calculating is reading and then evaluating. A judgement that holds
of the parts of a calculator's work, and that composition hands on, holds of all its work: of
reading, evaluating and calculating, and of the changes to its variables.
-/

namespace Reckoner

namespace Calculator

/-! ## Reading -/

variable {c : Calculator} {text : String} {s : Stores}

theorem read_of_error {e : SyntaxError}
    (h : ((s.registry c.store).scope c.store).read text = .error e) :
    c.read text s = ⟨.error (.reading e), s, .empty⟩ := by
  have hreg : (Calculation.registry c.store s).value = .ok (s.registry c.store) := rfl
  unfold read
  rw [Calculation.bind_of_ok hreg, h]
  rfl

theorem read_of_ok {t : Expr} (h : ((s.registry c.store).scope c.store).read text = .ok t) :
    c.read text s = ⟨.ok t, s, .one (.read text t)⟩ := by
  have hreg : (Calculation.registry c.store s).value = .ok (s.registry c.store) := rfl
  unfold read
  rw [Calculation.bind_of_ok hreg, h]
  rfl

/-- Where the text cannot be read, nothing happens. -/
theorem calculate_of_error {e : SyntaxError}
    (h : ((s.registry c.store).scope c.store).read text = .error e) :
    c.calculate text s = ⟨.error (.reading e), s, .empty⟩ := by
  have hread := read_of_error h
  have hvalue : (c.read text s).value = .error (.reading e) := by rw [hread]
  unfold calculate
  rw [Calculation.bind_of_error hvalue, hread]

/-- Otherwise its expression is evaluated. -/
theorem calculate_of_ok {t : Expr} (h : ((s.registry c.store).scope c.store).read text = .ok t) :
    c.calculate text s = ⟨(c.evaluate t s).value, (c.evaluate t s).stores,
      .one (.read text t) ++ (c.evaluate t s).trace⟩ := by
  have hread := read_of_ok h
  have hvalue : (c.read text s).value = .ok t := by rw [hread]
  unfold calculate
  rw [Calculation.bind_of_ok hvalue, hread]

/-- Evaluating reports that it went too deep, and is otherwise the evaluation of the tree. -/
theorem evaluate_apply (c : Calculator) (e : Expr) (s : Stores) :
    ∃ t, c.evaluate e s =
      ⟨(e.evaluate s).value.mapError evaluationError, (e.evaluate s).stores, t⟩ := by
  have hmapped : e.evaluate.mapError evaluationError s =
      ⟨(e.evaluate s).value.mapError evaluationError, (e.evaluate s).stores,
        (e.evaluate s).trace⟩ := rfl
  unfold evaluate
  cases hv : (e.evaluate s).value with
  | error err =>
    rw [hv] at hmapped
    rw [Calculation.bind_of_error (congrArg Outcome.value hmapped), hmapped]
    exact ⟨_, rfl⟩
  | ok v =>
    rw [hv] at hmapped
    rw [Calculation.bind_of_ok (congrArg Outcome.value hmapped), hmapped]
    exact ⟨_, rfl⟩

/-- What an evaluation comes to for a calculator. -/
theorem value_evaluate (c : Calculator) (e : Expr) (s : Stores) :
    (c.evaluate e s).value = (e.evaluate s).value.mapError evaluationError := by
  obtain ⟨t, h⟩ := evaluate_apply c e s
  rw [h]

/-- The limit on nesting changes no registry. -/
theorem stores_evaluate (c : Calculator) (e : Expr) (s : Stores) :
    (c.evaluate e s).stores = (e.evaluate s).stores := by
  obtain ⟨t, h⟩ := evaluate_apply c e s
  rw [h]

/-! ## Judgements -/

/-- The judgement holds of the parts of what the calculator does, for a registry with `R`. It reads
expressions with `T`, and their values have `P`. -/
structure Obeys (c : Calculator) (H : {α : Type} → Calculation α → (α → Prop) → Prop)
    (R : Registry → Prop) (T P : Expr → Prop) : Prop where
  /-- Composition hands the judgement on. -/
  logic : Calculation.Logic H
  /-- Events do not matter. -/
  note : ∀ {e : Event}, H (Calculation.note e) fun _ => True
  /-- Other errors do not matter. -/
  mapError : ∀ {α : Type} {x : Calculation α} {Q : α → Prop}
    {f : CalculationError → CalculationError}, H x Q → H (x.mapError f) Q
  /-- The registry is looked at. -/
  registry : H (Calculation.registry c.store) R
  /-- A text is read. -/
  reads : ∀ {r text e}, R r → (r.scope c.store).read text = .ok e → T e
  /-- An expression is evaluated. -/
  evaluates : ∀ {e}, T e → H e.evaluate P
  /-- A variable is bound to a value. -/
  assigns : ∀ {name value}, P value → H (Expr.assign c.store name value) fun _ => True
  /-- A variable is removed. -/
  undefines : ∀ {r} name, R r → H (Calculation.put c.store (r.undefine name)) fun _ => True
  /-- All variables are removed. -/
  clears : ∀ {r}, R r → H (Calculation.put c.store r.clear) fun _ => True

namespace Obeys

variable {H : {α : Type} → Calculation α → (α → Prop) → Prop}
  {R : Registry → Prop} {T P : Expr → Prop}

theorem read (h : c.Obeys H R T P) (text : String) : H (c.read text) T := by
  unfold Calculator.read
  refine h.logic.bind h.registry fun r hr => ?_
  refine h.logic.bind (h.logic.ofExcept fun e he => h.reads hr he) fun e he => ?_
  exact h.logic.bind h.note fun _ _ => h.logic.pure he

theorem evaluate (h : c.Obeys H R T P) {e : Expr} (he : T e) : H (c.evaluate e) P := by
  unfold Calculator.evaluate
  refine h.logic.bind (h.mapError (h.evaluates he)) fun value hvalue => ?_
  exact h.logic.bind h.note fun _ _ => h.logic.pure hvalue

theorem calculate (h : c.Obeys H R T P) (text : String) : H (c.calculate text) P :=
  h.logic.bind (h.read text) fun _ he => h.evaluate he

/-- A definition evaluates its text and stores the value. -/
theorem define (h : c.Obeys H R T P) (name text : String) : H (c.define name text) P := by
  unfold Calculator.define
  refine h.logic.bind (h.calculate text) fun value hvalue => ?_
  exact h.logic.bind (h.assigns hvalue) fun _ _ => h.logic.pure hvalue

theorem undefine (h : c.Obeys H R T P) (name : String) : H (c.undefine name) fun _ => True := by
  unfold Calculator.undefine
  refine h.logic.bind h.registry fun r hr => ?_
  split
  · refine h.logic.bind (h.undefines name hr) fun _ _ => ?_
    exact h.logic.bind h.note fun _ _ => h.logic.pure trivial
  · exact h.logic.pure trivial

theorem clear (h : c.Obeys H R T P) : H c.clear fun _ => True := by
  unfold Calculator.clear
  refine h.logic.bind h.registry fun r hr => ?_
  exact h.logic.bind (h.clears hr) fun _ _ => h.note

end Obeys

end Calculator

end Reckoner
