import Reckoner.Proofs.Calculator
import Reckoner.Proofs.Grammar.Assignment

/-!
# Two ways to bind a variable

A calculator binds a variable to the value of a text, and so does a text that begins with the name
and an equals sign. The first way evaluates the text and then binds; the second way does both within
one evaluation, so that the text is nested one level deeper there. Nesting apart, nothing shows
which way was taken but the positions in errors.
-/

namespace Reckoner

/-! ## Greater depths -/

namespace Calculation

variable {α β : Type} {x y : Calculation α}

/-- The second calculation does what the first one does, unless that goes too deep, and the first
one does not fail because of a text. -/
structure GoesDeeper (x y : Calculation α) : Prop where
  unread : ∀ s e, (x s).value ≠ .error (.reading e)
  same : ∀ s, (x s).value ≠ .error (.fault .tooDeep) → y s = x s

theorem goesDeeper_refl (h : ∀ s e, (x s).value ≠ .error (.reading e)) : GoesDeeper x x :=
  ⟨h, fun _ _ => rfl⟩

theorem goesDeeper_fail {e : CalculationError} (h : ∀ e', e ≠ .reading e') :
    GoesDeeper (fail e : Calculation α) (fail e) :=
  goesDeeper_refl fun _ e' heq => h e' (Except.error.inj heq)

theorem goesDeeper_ofExcept {ε : Type} {f : ε → CalculationError} (o : Except ε α)
    (h : ∀ e e', f e ≠ .reading e') : GoesDeeper (ofExcept f o) (ofExcept f o) := by
  cases o with
  | error e => exact goesDeeper_fail (h e)
  | ok a => exact goesDeeper_refl fun _ _ heq => by cases heq

theorem GoesDeeper.bind {f g : α → Calculation β} (hxy : GoesDeeper x y)
    (hfg : ∀ a, GoesDeeper (f a) (g a)) : GoesDeeper (x >>= f) (y >>= g) := by
  constructor
  · intro s e h
    cases hv : (x s).value with
    | error e' =>
      rw [bind_of_error hv] at h
      obtain rfl : e' = .reading e := Except.error.inj h
      exact hxy.unread s e hv
    | ok a =>
      rw [bind_of_ok hv] at h
      exact (hfg a).unread _ e h
  · intro s h
    cases hv : (x s).value with
    | error e =>
      rw [bind_of_error hv] at h
      have hy := hxy.same s fun hdeep => h <| by
        obtain rfl : e = _ := Except.error.inj (hv.symm.trans hdeep)
        rfl
      rw [bind_of_error hv, bind_of_error (hy ▸ hv), hy]
    | ok a =>
      rw [bind_of_ok hv] at h
      have hy := hxy.same s (by rw [hv]; simp)
      rw [bind_of_ok hv, bind_of_ok (hy ▸ hv), hy, (hfg a).same _ h]

end Calculation

namespace Expr

open Calculation

theorem goesDeeper_symbolValue (name : String) (role : Role) :
    GoesDeeper (symbolValue name role) (symbolValue name role) := by
  refine goesDeeper_refl fun s e h => ?_
  cases role <;> cases h

theorem goesDeeper_targetName (target : Expr) :
    GoesDeeper (targetName target) (targetName target) := by
  have htext : ∀ t e, CalculationError.ofText t ≠ .reading e := by
    intro t e
    cases t <;> simp [CalculationError.ofText]
  cases target with
  | sym name role => exact goesDeeper_refl fun _ _ h => by cases h
  | num n => exact (goesDeeper_ofExcept _ htext).bind fun _ => goesDeeper_fail (by simp)
  | app op ps => exact (goesDeeper_ofExcept _ htext).bind fun _ => goesDeeper_fail (by simp)

theorem goesDeeper_assign (id : StoreId) (name : String) (value : Expr) :
    GoesDeeper (assign id name value) (assign id name value) := by
  refine goesDeeper_refl fun s e h => ?_
  rw [assign_apply] at h
  cases hdefine : (s.registry id).define name value with
  | error e' => rw [hdefine] at h; cases h
  | ok r => rw [hdefine] at h; cases h

theorem goesDeeper_reduce (op : Operator) (args : List Expr) :
    GoesDeeper (ofLogged (Simplify.reduce op args)) (ofLogged (Simplify.reduce op args)) := by
  refine goesDeeper_refl fun s e h => ?_
  unfold ofLogged at h
  cases hv : (Simplify.reduce op args).value with
  | ok a => rw [hv] at h; cases h
  | error e' =>
    rw [hv] at h
    cases e' <;> cases h

mutual

/-- With a greater depth the same happens, unless the smaller one is not enough. -/
theorem goesDeeper_evaluateWithin : {d d' : Nat} → (e : Expr) → d ≤ d' →
    GoesDeeper (e.evaluateWithin d) (e.evaluateWithin d')
  | _, _, .num n, _ => by
    rw [evaluateWithin, evaluateWithin]
    exact goesDeeper_refl fun _ _ h => by cases h
  | _, _, .sym name role, _ => by
    rw [evaluateWithin, evaluateWithin]
    exact goesDeeper_symbolValue name role
  | 0, _, .app op ps, _ => by
    have hdeep : (Expr.app op ps).evaluateWithin 0 = fail (.fault .tooDeep) := by
      cases op <;> rfl
    rw [hdeep]
    exact ⟨fun _ _ h => (by cases h), fun _ h => absurd rfl h⟩
  | d + 1, 0, _, hle => absurd hle (Nat.not_succ_le_zero d)
  | d + 1, d' + 1, .app op ps, hle => by
    have hle' := Nat.le_of_succ_le_succ hle
    by_cases hop : ∃ id, op = .define id
    · obtain ⟨id, rfl⟩ := hop
      rw [evaluateWithin, evaluateWithin]
      exact goesDeeper_evaluateDefinition id ps hle'
    · have hproper : ∀ id, op ≠ .define id := fun id hid => hop ⟨id, hid⟩
      rw [evaluateWithin, evaluateWithin]
      · exact (goesDeeper_evaluateList ps hle').bind fun args => goesDeeper_reduce op args
      · exact hproper
      · exact hproper

theorem goesDeeper_evaluateList : {d d' : Nat} → (ps : List Expr) → d ≤ d' →
    GoesDeeper (evaluateList d ps) (evaluateList d' ps)
  | _, _, [], _ => by
    rw [evaluateList, evaluateList]
    exact goesDeeper_refl fun _ _ h => by cases h
  | _, _, p :: ps, hle => by
    rw [evaluateList, evaluateList]
    refine (goesDeeper_evaluateWithin p hle).bind fun value => ?_
    refine (goesDeeper_evaluateList ps hle).bind fun args => ?_
    exact goesDeeper_refl fun _ _ h => by cases h

theorem goesDeeper_evaluateDefinition : {d d' : Nat} → (id : StoreId) → (ps : List Expr) → d ≤ d' →
    GoesDeeper (evaluateDefinition d id ps) (evaluateDefinition d' id ps)
  | _, _, id, [target, e], hle => by
    rw [evaluateDefinition, evaluateDefinition]
    refine (goesDeeper_targetName target).bind fun name => ?_
    refine (goesDeeper_evaluateWithin e hle).bind fun value => ?_
    refine (goesDeeper_assign id name value).bind fun _ => ?_
    exact goesDeeper_refl fun _ _ h => by cases h
  | _, _, _, [], _ => goesDeeper_fail (by simp)
  | _, _, _, [_], _ => goesDeeper_fail (by simp)
  | _, _, _, _ :: _ :: _ :: _, _ => goesDeeper_fail (by simp)

end

end Expr

/-! ## Errors further to the right -/

/-- The complaint does not depend on the position. -/
theorem SyntaxError.reason_move (g : Nat → Nat) (e : SyntaxError) :
    (e.move g).reason = e.reason := by
  cases e <;> rfl

/-- An error that points at a position points at the other one. -/
theorem SyntaxError.position?_move (g : Nat → Nat) (e : SyntaxError) :
    (e.move g).position? = e.position?.map g := by
  cases e <;> rfl

/-- The error, where the text stands at another position. -/
def CalculationError.move (g : Nat → Nat) : CalculationError → CalculationError
  | .reading e => .reading (e.move g)
  | e => e

/-- Only an error in a text points anywhere. -/
theorem Calculator.move_evaluationError {e : CalculationError} (h : ∀ e', e ≠ .reading e')
    (g : Nat → Nat) : (evaluationError e).move g = evaluationError e := by
  cases e with
  | reading e' => exact absurd rfl (h e')
  | definition e' => rfl
  | tooDeepToEvaluate => rfl
  | tooDeepToRender => rfl
  | fault f => cases f <;> rfl

/-- What does not fail because of a text is the same wherever the text stands. -/
theorem Calculator.mapError_move {α : Type} {o : Except CalculationError α}
    (h : ∀ e, o ≠ .error (.reading e)) (g : Nat → Nat) :
    (o.mapError evaluationError).mapError (CalculationError.move g) =
      o.mapError evaluationError := by
  cases o with
  | ok a => rfl
  | error e =>
    exact congrArg Except.error (move_evaluationError (fun e' he => h e' (congrArg _ he)) g)

/-! ## Assignments -/

/-- Where definitions are the built-in ones, an equals sign stands for one. -/
theorem Scope.apply_define {r : Registry} {id : StoreId}
    (h : r.operators.get? "DEFINE" = some (.define id)) (ps : List Expr) :
    (r.scope id).apply (.define (r.scope id).store) ps = .app (.define id) ps := by
  have hcurrent : (r.scope id).current (.define id) = .define id := by
    show (r.operators.get? "DEFINE").getD _ = _
    rw [h, Option.getD_some]
  rw [Scope.apply]
  exact congrArg (Expr.app · ps) hcurrent

namespace Expr

open Calculation

/-- Binds a variable to the value of an expression. -/
def bind (id : StoreId) (name : String) (depth : Nat) (e : Expr) : Calculation Expr := do
  let value ← e.evaluateWithin depth
  assign id name value
  return value

theorem goesDeeper_bind (id : StoreId) (name : String) {d d' : Nat} (e : Expr) (hle : d ≤ d') :
    GoesDeeper (e.bind id name d) (e.bind id name d') := by
  refine (goesDeeper_evaluateWithin e hle).bind fun value => ?_
  refine (goesDeeper_assign id name value).bind fun _ => ?_
  exact goesDeeper_refl fun _ _ h => by cases h

/-- A definition in a tree leaves one level less to the expression. -/
theorem evaluate_definition (id : StoreId) (name : String) (role : Role) (e : Expr) :
    (Expr.app (.define id) [.sym name role, e]).evaluate = e.bind id name (maxDepth - 1) := by
  rw [evaluate, maxDepth, evaluateWithin, evaluateDefinition]
  rfl

end Expr

namespace Calculator

variable {c : Calculator} {s : Stores} {name text : String}

/-- A definition through the calculator binds the variable to the value of the expression that is
read. -/
theorem define_of_ok (name : String) {e : Expr}
    (h : ((s.registry c.store).scope c.store).read text = .ok e) :
    (c.define name text s).value =
        (e.bind c.store name Expr.maxDepth s).value.mapError evaluationError ∧
      (c.define name text s).stores = (e.bind c.store name Expr.maxDepth s).stores := by
  have hcalculate := calculate_of_ok h
  have hvalue : (c.calculate text s).value = (e.evaluate s).value.mapError evaluationError := by
    rw [hcalculate, value_evaluate]
  have hstores : (c.calculate text s).stores = (e.evaluate s).stores := by
    rw [hcalculate, stores_evaluate]
  unfold define Expr.bind
  cases hv : (e.evaluateWithin Expr.maxDepth s).value with
  | error err =>
    have hfail : (c.calculate text s).value = .error (evaluationError err) := by
      rw [hvalue, Expr.evaluate, hv]
      rfl
    rw [Calculation.bind_of_error hfail, Calculation.bind_of_error hv]
    exact ⟨rfl, hstores⟩
  | ok v =>
    have hok : (c.calculate text s).value = .ok v := by
      rw [hvalue, Expr.evaluate, hv]
      rfl
    rw [Calculation.bind_of_ok hok, Calculation.bind_of_ok hv, hstores, Expr.evaluate]
    refine ⟨?_, rfl⟩
    -- binding the variable may fail, but not because of the nesting
    generalize (e.evaluateWithin Expr.maxDepth s).stores = s'
    cases hassign : (Expr.assign c.store name v s').value with
    | error err =>
      have herr : evaluationError err = err := by
        rw [Expr.assign_apply] at hassign
        split at hassign
        · cases hassign
        · cases hassign
          rfl
      simp only [Calculation.bind_of_error hassign]
      rw [Except.mapError, herr]
    | ok _ =>
      simp only [Calculation.bind_of_ok hassign]
      rfl

/-- A text that is read as a definition binds the variable, at a depth less by one. -/
theorem calculate_of_definition {role : Role} {e : Expr}
    (h : ((s.registry c.store).scope c.store).read text =
      .ok (.app (.define c.store) [.sym name role, e])) :
    (c.calculate text s).value =
        (e.bind c.store name (Expr.maxDepth - 1) s).value.mapError evaluationError ∧
      (c.calculate text s).stores = (e.bind c.store name (Expr.maxDepth - 1) s).stores := by
  rw [calculate_of_ok h, value_evaluate, stores_evaluate, Expr.evaluate_definition]
  exact ⟨rfl, rfl⟩

/-- A text after a name and an equals sign comes to what the calculator comes to when it binds the
name to the value of the text: the same tree or the same error, which points as much further to the
right as the text stands further to the right, and the same variables. The exception is an
expression that is nested too deeply for the definition around it. -/
theorem calculate_assignment (c : Calculator) (s : Stores) (name text : String)
    (hdefine : (s.registry c.store).operators.get? "DEFINE" = some (.define c.store))
    (hname : IsName name.toList) (hlower : Text.allUpper name = false)
    (htext : '=' ∉ text.toList) :
    (c.calculate (name ++ "=" ++ text) s).value = .error .tooDeepToEvaluate ∨
      (c.calculate (name ++ "=" ++ text) s).value =
          (c.define name text s).value.mapError (CalculationError.move (· + (name.length + 1))) ∧
        (c.calculate (name ++ "=" ++ text) s).stores = (c.define name text s).stores := by
  have hchars : (name ++ "=" ++ text).toList = name.toList ++ '=' :: text.toList := by simp
  have hmoved := Scope.moved_assignment (s := (s.registry c.store).scope c.store) hname hlower
    htext 999
  have hread : ∀ t, ((s.registry c.store).scope c.store).read t =
      ((s.registry c.store).scope c.store).readWithin 1000 t.toList := fun _ => rfl
  rw [← hchars, ← hread, ← hread] at hmoved
  generalize hx : ((s.registry c.store).scope c.store).read text = x at hmoved
  generalize hy : ((s.registry c.store).scope c.store).read (name ++ "=" ++ text) = y at hmoved
  -- the two texts are read alike; a definition is then one level deeper than its expression
  cases hmoved with
  | error err =>
    have hfail := calculate_of_error hx
    have hvalue : (c.calculate text s).value = .error (.reading err) := by rw [hfail]
    refine .inr ?_
    unfold define
    rw [calculate_of_error hy, Calculation.bind_of_error hvalue, hfail]
    exact ⟨rfl, rfl⟩
  | @ok e e' heq =>
    rw [heq, Scope.apply_define hdefine] at hy
    obtain ⟨hvalue, hstores⟩ := calculate_of_definition hy
    obtain ⟨hdefined, hdefinedStores⟩ := define_of_ok name hx
    have hdeeper := Expr.goesDeeper_bind c.store name e (Nat.sub_le Expr.maxDepth 1)
    by_cases hdeep :
        (e.bind c.store name (Expr.maxDepth - 1) s).value = .error (.fault .tooDeep)
    · refine .inl ?_
      rw [hvalue, hdeep]
      rfl
    · rw [hdeeper.same s hdeep] at hdefined hdefinedStores
      refine .inr ⟨?_, hstores.trans hdefinedStores.symm⟩
      rw [hvalue, hdefined, mapError_move (hdeeper.unread s)]

/-- The character that starts no lexeme stands at 2 in the text, and at 5 behind `ab=`. -/
theorem calculate_assignment_stray :
    ((Calculator.mk 0).define "ab" "2*$" .fresh).value =
        .error (.reading (.unidentified '$' 2)) ∧
      ((Calculator.mk 0).calculate ("ab" ++ "=" ++ "2*$") .fresh).value =
        .error (.reading (.unidentified '$' 5)) := by
  have hdefine : ((Calculator.mk 0).define "ab" "2*$" .fresh).value =
      .error (.reading (.unidentified '$' 2)) := eq_error_of_map (by decide +kernel)
  have hread : ((Registry.fresh 0).scope 0).read ("ab" ++ "=" ++ "2*$") =
      .error (.unidentified '$' 5) := eq_error_of_map (by decide +kernel)
  have hname : IsName "ab".toList := ⟨⟨'a', rfl, by decide⟩, by simp [isNameChar]⟩
  refine ⟨hdefine, ?_⟩
  rcases calculate_assignment ⟨0⟩ .fresh "ab" "2*$" rfl hname (by decide +kernel) (by simp)
    with hdeep | ⟨hvalue, -⟩
  · rw [calculate_of_error (c := ⟨0⟩) (s := .fresh) hread] at hdeep
    cases hdeep
  · rw [hvalue, hdefine]
    rfl

end Calculator

end Reckoner
