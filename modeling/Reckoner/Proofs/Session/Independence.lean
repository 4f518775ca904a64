import Reckoner.Proofs.Evaluation.Agreement
import Reckoner.Proofs.Session

/-!
# Independence of values

Whatever a session did before, no value of a variable and no result of an evaluation refers to a
variable that is looked up, or to a definition: looking up gives values, definitions leave their
value in place of themselves, and simplification brings in neither. So a value stands for itself in
every registry, however the variables change afterwards.
-/

namespace Reckoner

/-! ## What evaluation leaves -/

theorem Material.closed_independent : Material.independent.Closed :=
  closed_of_numbers (fun _ => trivial) fun _ hop => hop.isProper.2

/-- The values of the variables are independent. -/
def Registry.Independent (r : Registry) : Prop := r.Binds Expr.IsIndependent

/-- Whatever is evaluated, its value is independent. -/
theorem Material.yields_independent :
    Material.any.Yields (Stores.All Registry.Independent) Expr.IsIndependent where
  number _ := Expr.madeOf_num.2 trivial
  symbol _ hrole := Expr.madeOf_sym.2 hrole
  stored _ hs := (hs _).lookup (Expr.isIndependent_free _)
  bound _ hs hv h := hs.put ((hs _).define hv h)
  reduce _ hproper hps h := Simplify.madeOf_reduce closed_independent hproper hps h

theorem Registry.invariant_independent :
    Invariant Independent (fun _ => True) Expr.IsIndependent where
  fresh := binds_fresh
  define := Binds.define
  register hr _ h := by
    obtain rfl := eq_of_register h
    exact hr
  undefine name hr := hr.undefine name
  clear _ := Binds.clear
  build _ := trivial
  read _ _ := trivial
  evaluate {e} _ := Expr.keeps_evaluate Material.yields_independent e.madeOf_any
  value _ := trivial

/-! ## Answers -/

/-- The request has an expression evaluated, and is answered with the value. -/
def Request.Evaluates : Request → Prop
  | .calculate _ => True
  | .evaluate _ _ => True
  | .define _ _ => True
  | .commonCalculate _ => True
  | .commonEvaluate _ => True
  | _ => False

namespace Workspace

open Calculation

variable {w : Workspace} {R : Registry → Prop} {T P : Expr → Prop}

theorem Has.answer_tree (hw : w.Has R T) {x : Calculation Expr} (hx : Keeps (Stores.All R) x P)
    {e : Expr} (h : (w.answer .tree x).1 = .ok (.tree e)) : P e := by
  have hvalue : ∀ e', (w.run x).1 = .ok e' → P e' := (hw.run hx).2
  unfold Workspace.answer at h
  cases hrun : (w.run x).1 with
  | error err => simp only [hrun] at h; cases h
  | ok e' =>
    simp only [hrun] at h
    cases h
    exact hvalue e hrun

theorem Has.keep_tree (hw : w.Has R T) {tree : String} {x : Calculation Expr}
    (hx : Keeps (Stores.All R) x P) {e : Expr} (h : (w.keep tree x).1 = .ok (.tree e)) : P e := by
  have hvalue : ∀ e', (w.run x).1 = .ok e' → P e' := (hw.run hx).2
  unfold Workspace.keep at h
  split at h
  · next e' w' heq =>
    cases h
    exact hvalue e (congrArg Prod.fst heq)
  · cases h

theorem Has.withTree_tree (hw : w.Has R T) {tree : String}
    {f : Expr → Except RequestError Answer × Workspace} {e : Expr}
    (hf : ∀ t, T t → (f t).1 = .ok (.tree e) → P e)
    (h : (w.withTree tree f).1 = .ok (.tree e)) : P e := by
  unfold Workspace.withTree at h
  split at h
  · next t ht => exact hf t (hw.trees tree t ht) h
  · cases h

/-- The answer to a request that has an expression evaluated is a value. -/
theorem Has.handle_tree (hw : w.Has R T) (h : Registry.Invariant R T P) {name : String}
    {c : Calculator} {request : Request} (hr : request.Evaluates) {e : Expr}
    (he : (w.handle name c request).1 = .ok (.tree e)) : P e := by
  cases request with
  | calculate text => exact hw.answer_tree ((h.obeys c).calculate text) he
  | evaluate source tree =>
    exact hw.withTree_tree (fun t ht he => hw.keep_tree ((h.obeys c).evaluate ht) he) he
  | define name text => exact hw.answer_tree ((h.obeys c).define name text) he
  | commonCalculate text =>
    have hread := (h.obeys ⟨w.common⟩).read text
    exact hw.answer_tree (hread.bind fun t ht => h.evaluate ht) he
  | commonEvaluate tree =>
    exact hw.withTree_tree (fun t ht he => hw.answer_tree (h.evaluate ht) he) he
  | _ => exact hr.elim

/-! ## Sessions -/

/-- In every session the values of all variables are independent, and so are the answers of all
requests that evaluate and the values of all expressions; and evaluating such a value, by whichever
calculator and on whatever registries, has one outcome and changes nothing. -/
theorem independent_of_reached (hw : w.Reached) :
    (∀ id name e, (w.stores.registry id).bindings.get? name = some e → e.IsIndependent) ∧
    (∀ name request e, request.Evaluates → (w.perform name request).1 = .ok (.tree e) →
      e.IsIndependent) ∧
    (∀ (c : Calculator) t e, (c.evaluate t w.stores).value = .ok e → e.IsIndependent) ∧
    ∀ e : Expr, e.IsIndependent → ∀ (c c' : Calculator) (s s' : Stores),
      c.evaluate e s = { c'.evaluate e s' with stores := s } := by
  have hinv := Registry.invariant_independent
  have hhas := hw.has hinv
  refine ⟨hhas.stores, fun name request e hr he => ?_, fun c t e he => ?_, fun e he => ?_⟩
  · exact (hhas.calculator name).handle_tree hinv hr he
  · exact ((hinv.obeys c).evaluate trivial w.stores hhas.stores).2 e he
  · exact Calculator.evaluate_of_isIndependent he

/-- A session in which a calculation fails after it has bound `y`, and an expression is read that
looks `y` up and defines `z`. -/
def halfway : Workspace :=
  ((fresh.perform "first" (.calculate "DEFINE(y,x*2)+DEFINE(1,3)")).2.perform "first"
    (.read "tree" "y+DEFINE(z,y)")).2

/-- There another calculator evaluates the expression to `4*x`, for good. -/
theorem independent_of_reached_halfway :
    ∃ y e, halfway.Reached ∧ (halfway.stores.registry 1).bindings.get? "y" = some y ∧
      (halfway.perform "second" (.evaluate "tree" "value")).1 = .ok (.tree e) ∧
      e.render = .ok "4*x" ∧ y.IsIndependent ∧ e.IsIndependent ∧
      ∀ c s, Calculator.evaluate c e s =
        { (Calculator.mk 1).evaluate e halfway.stores with stores := s } := by
  have hreached : halfway.Reached := .perform "first" (.perform "first" .fresh trivial) trivial
  have hy : ∃ y, (halfway.stores.registry 1).bindings.get? "y" = some y := by
    rw [← Option.isSome_iff_exists]
    decide +kernel
  have hanswer : (halfway.perform "second" (.evaluate "tree" "value")).1.toOption.any
      (fun a => match a with | .tree e => decide (e.render = .ok "4*x") | _ => false) = true := by
    decide +kernel
  obtain ⟨y, hy⟩ := hy
  obtain ⟨a, ha, hfacts⟩ := exists_eq_ok hanswer
  cases a with
  | tree e =>
    obtain ⟨hbindings, hanswers, -, hagain⟩ := independent_of_reached hreached
    have he : e.IsIndependent := hanswers "second" (.evaluate "tree" "value") e trivial ha
    exact ⟨y, e, hreached, hy, ha, of_decide_eq_true hfacts, hbindings 1 "y" y hy, he,
      fun c s => hagain e he c ⟨1⟩ s halfway.stores⟩
  | _ => cases hfacts

end Workspace

end Reckoner
