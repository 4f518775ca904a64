import Reckoner.Proofs.Evaluation.Agreement
import Reckoner.Proofs.Grammar.Relabel
import Reckoner.Proofs.Text.RoundTrip
import Reckoner.Proofs.Calculator

/-!
# Variables between reading and evaluation

A text remembers which of its names were variables when it was read, but no values. When it is
evaluated, a variable that is gone by then is free, and any other one has the value it has by then.
So a text without definitions that was read while there were at least the variables of today has the
outcome that it has when it is read today.
-/

namespace Reckoner

/-! ## Releasing variables -/

/-- The role that is left for a symbol: a stored variable without a value is free. -/
def Stores.release (s : Stores) (name : String) : Role → Role
  | .stored id => if (s.registry id).bindings.contains name then .stored id else .free
  | role => role

theorem Stores.release_stored (s : Stores) (name : String) (id : StoreId) :
    s.release name (.stored id) =
      if (s.registry id).bindings.contains name then .stored id else .free := rfl

namespace Calculation

variable {α β : Type} {x y : Calculation α} {f g : α → Calculation β} {s : Stores}

/-- The outcome of two calculations in a row depends on the two outcomes alone. -/
theorem bind_congr (hxy : x s = y s) (hfg : ∀ a, f a (x s).stores = g a (x s).stores) :
    (x >>= f) s = (y >>= g) s := by
  cases hv : (x s).value with
  | error e =>
    have hv' : (y s).value = .error e := by rw [← hxy, hv]
    rw [bind_of_error hv, bind_of_error hv', hxy]
  | ok a =>
    have hv' : (y s).value = .ok a := by rw [← hxy, hv]
    rw [bind_of_ok hv, bind_of_ok hv', hfg a, hxy]

end Calculation

namespace Expr

open Calculation

theorem symbolValue_stored (s : Stores) (name : String) (id : StoreId) :
    symbolValue name (.stored id) s =
      ⟨.ok (((s.registry id).bindings.get? name).getD (.free name)), s, .empty⟩ := rfl

theorem symbolValue_release (s : Stores) (name : String) (role : Role) :
    symbolValue name (s.release name role) s = symbolValue name role s := by
  cases role with
  | free => rfl
  | operator op => rfl
  | stored id =>
    rw [s.release_stored]
    by_cases hbound : (s.registry id).bindings.contains name = true
    · rw [if_pos hbound]
    · have hnone : (s.registry id).bindings.get? name = none := by
        simpa [Table.contains] using hbound
      rw [if_neg hbound, symbolValue_stored, hnone]
      rfl

mutual

theorem evaluateWithin_release (s : Stores) : (depth : Nat) → (e : Expr) → e.IsBindless →
    (e.relabel s.release).evaluateWithin depth s = e.evaluateWithin depth s
  | _, .num n, _ => by rw [relabel_num]
  | _, .sym name role, _ => by
    rw [relabel_sym, evaluateWithin, evaluateWithin]
    exact symbolValue_release s name role
  | depth, .app op ps, he => by
    have hproper := (madeOf_app.1 he).1
    have hps := (madeOf_app.1 he).2
    rw [relabel_app]
    cases depth with
    | zero => rw [evaluateWithin, evaluateWithin] <;> exact hproper
    | succ depth =>
      rw [evaluateWithin, evaluateWithin]
      · exact bind_congr (evaluateList_release s depth ps hps) fun _ => rfl
      · exact hproper
      · exact hproper

theorem evaluateList_release (s : Stores) : (depth : Nat) → (ps : List Expr) →
    (∀ p ∈ ps, p.IsBindless) →
    evaluateList depth (ps.map (relabel s.release)) s = evaluateList depth ps s
  | _, [], _ => rfl
  | depth, p :: ps, hps => by
    rw [List.forall_mem_cons] at hps
    have hp := evaluateWithin_release s depth p hps.1
    have hstores : (evaluateWithin depth p s).stores = s := (hps.1.keeps depth s s rfl).1
    rw [List.map_cons, evaluateList, evaluateList]
    refine bind_congr hp fun value => ?_
    rw [hp, hstores]
    exact bind_congr (evaluateList_release s depth ps hps.2) fun _ => rfl

end

end Expr

/-! ## Texts without definitions -/

/-- The lexeme has nothing to do with definitions. -/
def Lexeme.IsDefinitionFree : Lexeme → Prop
  | .name cs => String.ofList cs ≠ "DEFINE"
  | .mark kind _ => kind ≠ .equals
  | _ => True

instance : DecidablePred Lexeme.IsDefinitionFree := fun l =>
  match l with
  | .name cs => inferInstanceAs (Decidable (String.ofList cs ≠ "DEFINE"))
  | .numeral _ _ => .isTrue trivial
  | .mark kind _ => inferInstanceAs (Decidable (kind ≠ .equals))
  | .stray _ => .isTrue trivial

/-- There are no definitions in the text. -/
def IsDefinitionFreeText (text : String) : Prop := ∀ l ∈ lexemes text.toList, l.IsDefinitionFree

instance (text : String) : Decidable (IsDefinitionFreeText text) :=
  inferInstanceAs (Decidable (∀ l ∈ lexemes text.toList, l.IsDefinitionFree))

namespace Registry

variable {id : StoreId} {r : Registry}

theorem gives_bindless (hr : r.operators = (fresh id).operators) :
    (r.scope id).Gives (fun t => t.lexeme.IsDefinitionFree) .bindless := by
  have hoperator : (r.scope id).operator? = ((fresh id).scope id).operator? := by
    simp only [scope, hr]
  refine Scope.gives_of_operators (fun _ => trivial) (fun _ _ _ => trivial) ?_ ?_ ?_
  · intro op hop
    have hcurrent : (r.scope id).current op = op := by
      unfold Scope.current
      rw [hoperator, isArithmetic_fresh op hop]
      rfl
    rw [hcurrent]
    exact hop.isProper.2
  · exact fun _ _ hF => absurd rfl hF
  · intro cs position op hF hop
    rw [hoperator] at hop
    exact (operator?_fresh hop hF).2.isProper.2

/-- A text without definitions is read to an expression without definitions. -/
theorem isBindless_of_read (hr : r.operators = (fresh id).operators) {text : String} {e : Expr}
    (htext : IsDefinitionFreeText text) (h : (r.scope id).read text = .ok e) : e.IsBindless := by
  refine Scope.madeOf_readWithin (gives_bindless hr) (fun t ht => ?_) h
  exact htext t.lexeme (List.mem_map_of_mem ht)

end Registry

/-! ## Reading before -/

/-- Variables that are gone are released, and the other ones stay. -/
theorem Registry.relabels_release {s s' : Stores} {id : StoreId}
    (hoperators : (s'.registry id).operators = (s.registry id).operators)
    (hvariables : ∀ name, (s'.registry id).bindings.contains name = true →
      (s.registry id).bindings.contains name = true) :
    Scope.Relabels s'.release ((s.registry id).scope id) ((s'.registry id).scope id) := by
  refine ⟨?_, rfl, fun _ _ => rfl, fun name => ?_⟩
  · show (s'.registry id).operators.get? = (s.registry id).operators.get?
    rw [hoperators]
  · show s'.release name (if (s.registry id).bindings.contains name then .stored id else .free) =
      if (s'.registry id).bindings.contains name then .stored id else .free
    by_cases hbefore : (s.registry id).bindings.contains name = true
    · rw [if_pos hbefore, Stores.release_stored]
    · have hnow : ¬(s'.registry id).bindings.contains name = true :=
        fun hnow => hbefore (hvariables name hnow)
      rw [if_neg hbefore, if_neg hnow]
      rfl

namespace Calculator

variable {c : Calculator} {text : String} {s s' : Stores}

/-- A text without definitions that was read before, when there were at least the variables of now,
has the value or the error that it has when it is read now: a variable has the value that it has
now, or is free if it is gone. -/
theorem evaluate_of_read_before
    (hoperators : (s.registry c.store).operators = (Registry.fresh c.store).operators)
    (hoperators' : (s'.registry c.store).operators = (Registry.fresh c.store).operators)
    (hvariables : ∀ name, (s'.registry c.store).bindings.contains name = true →
      (s.registry c.store).bindings.contains name = true)
    (htext : IsDefinitionFreeText text) :
    ((c.read text s).value >>= fun t => (c.evaluate t s').value) = (c.calculate text s').value ∧
    ∀ name, (c.evaluate (.sym name (.stored c.store)) s').value =
      .ok (((s'.registry c.store).bindings.get? name).getD (.free name)) := by
  constructor
  · -- the two trees differ in the roles of symbols only, and a symbol whose variable is gone is
    -- free
    have hrelabels := Registry.relabels_release (hoperators'.trans hoperators.symm) hvariables
    have hread : ((s'.registry c.store).scope c.store).read text =
        (((s.registry c.store).scope c.store).read text).map (Expr.relabel s'.release) :=
      hrelabels.readWithin Expr.maxDepth text.toList
    cases hbefore : ((s.registry c.store).scope c.store).read text with
    | error err =>
      rw [hbefore] at hread
      rw [read_of_error hbefore, calculate_of_error hread]
      rfl
    | ok t =>
      have ht : t.IsBindless := Registry.isBindless_of_read hoperators htext hbefore
      rw [hbefore] at hread
      rw [read_of_ok hbefore, calculate_of_ok hread]
      show (c.evaluate t s').value = (c.evaluate (t.relabel s'.release) s').value
      rw [value_evaluate, value_evaluate]
      unfold Expr.evaluate
      rw [Expr.evaluateWithin_release s' Expr.maxDepth t ht]
  · intro name
    rw [value_evaluate]
    unfold Expr.evaluate
    rw [Expr.evaluateWithin, Expr.symbolValue_stored]
    rfl

/-- The registries with the value `2*z` for `x`. -/
def doubledStores : Stores :=
  .put .fresh 0 { Registry.fresh 0 with
    bindings := Table.empty.set "x" (.app .multiply [.int 2, .free "z"]) }

/-- The registries with values for `x` and `y`. -/
def numberedStores : Stores :=
  .put .fresh 0 { Registry.fresh 0 with
    bindings := (Table.empty.set "x" (.int 7)).set "y" (.int 5) }

/-- Read when `x` and `y` have values, and evaluated when `x` has another one and `y` has none. -/
theorem evaluate_of_read_before_doubled :
    ∃ r, (((Calculator.mk 0).read "x*3+y*y" numberedStores).value >>= fun t =>
        ((Calculator.mk 0).evaluate t doubledStores).value) = .ok r ∧
      r.render = .ok "6*z+y^2" ∧
      ((Calculator.mk 0).evaluate (.sym "y" (.stored 0)) doubledStores).value =
        .ok (.free "y") := by
  have hvariables : ∀ name, (doubledStores.registry 0).bindings.contains name = true →
      (numberedStores.registry 0).bindings.contains name = true := by
    intro name h
    have hx : "x" = name := by
      by_contra hne
      have hnone : (doubledStores.registry 0).bindings.get? name = none :=
        (Table.get?_set _ _ _ _).trans (if_neg hne)
      rw [Table.contains, hnone] at h
      cases h
    subst hx
    rfl
  have htext : IsDefinitionFreeText "x*3+y*y" := by decide +kernel
  have hany : ((Calculator.mk 0).calculate "x*3+y*y" doubledStores).value.toOption.any
      (fun r => decide (r.render = .ok "6*z+y^2")) = true := by
    decide +kernel
  obtain ⟨r, hr, hfacts⟩ := exists_eq_ok hany
  obtain ⟨hbefore, hsymbol⟩ := @evaluate_of_read_before ⟨0⟩ "x*3+y*y" numberedStores
    doubledStores rfl rfl hvariables htext
  exact ⟨r, hbefore.trans hr, of_decide_eq_true hfacts, hsymbol "y"⟩

end Calculator

end Reckoner
