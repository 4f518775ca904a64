import Reckoner.Simplify.Basic

/-!
# The simplifier binds nothing

The trace of a simplification tells of the pairs that were combined, of powers that stayed as they
are and of the questions to extensions, but never of a variable. So in the trace of a calculation
only its definitions show up as bindings.
-/

namespace Reckoner

open Simplify

/-! ## Bindings in a trace -/

/-- The variable that an event binds, with its value. -/
def Event.binding? : Event → Option (String × Expr)
  | .defined name value => some (name, value)
  | _ => none

namespace Trace

/-- The variables that were bound, in the order in which it happened, with their values. -/
def bindings (t : Trace) : List (String × Expr) := t.toList.filterMap Event.binding?

@[simp] theorem bindings_append (t u : Trace) : (t ++ u).bindings = t.bindings ++ u.bindings := by
  simp [bindings]

theorem bindings_one {e : Event} (h : e.binding? = none) : (one e).bindings = [] := by
  simp [bindings, h]

end Trace

/-! ## Silent simplifications -/

namespace Logged

variable {α β : Type} {x : Logged α} {f : α → Logged β}

/-- No variable is bound. -/
def Silent (x : Logged α) : Prop := x.trace.bindings = []

theorem silent_pure (a : α) : (pure a : Logged α).Silent := rfl

theorem silent_fail (e : SimplifyError) : (fail e : Logged α).Silent := rfl

theorem silent_note {e : Event} (h : e.binding? = none) : (note e).Silent := Trace.bindings_one h

theorem silent_ofDouble? (o : Option α) : (ofDouble? o).Silent := by
  cases o with
  | some a => exact silent_pure a
  | none => exact silent_fail _

theorem Silent.bind (hx : x.Silent) (hf : ∀ a, (f a).Silent) : (x >>= f).Silent := by
  show (andThen x f).Silent
  unfold andThen
  cases hv : x.value with
  | error e => exact hx
  | ok a =>
    have ha : (f a).trace.bindings = [] := hf a
    show (x.trace ++ (f a).trace).bindings = []
    rw [Trace.bindings_append, ha, List.append_nil]
    exact hx

end Logged

namespace Simplify

open Logged

/-! ## Rules -/

variable {reduce : Reducer} {combine : Combiner}

theorem silent_combineNumbers (op : Operator) (a b : Number) : (combineNumbers op a b).Silent := by
  unfold combineNumbers
  split
  · exact silent_pure _
  · exact silent_pure _
  · unfold powerOfNumbers
    split
    · exact silent_pure _
    · split
      · exact (silent_note rfl).bind fun _ => silent_pure _
      · exact silent_pure _
  · exact silent_pure _

theorem silent_combinePromoted (op : Operator) (a b : Number) : (combinePromoted op a b).Silent :=
  (silent_ofDouble? _).bind fun _ => silent_combineNumbers _ _ _

theorem silent_combineFactors (hf : ∀ op ps, (reduce op ps).Silent) (l r : Expr) :
    (combineFactors reduce l r).Silent := by
  unfold combineFactors
  split
  · exact silent_pure _
  split
  · exact silent_pure _
  split
  · exact silent_pure _
  split
  · exact silent_combinePromoted _ _ _
  split
  · exact (hf _ _).bind fun _ => silent_pure _
  · simp only
    split
    · exact (hf _ _).bind fun _ => (hf _ _).bind fun _ => silent_pure _
    · exact silent_pure _

theorem silent_combineTerms (hf : ∀ op ps, (reduce op ps).Silent) (l r : Expr) :
    (combineTerms reduce l r).Silent := by
  unfold combineTerms
  split
  · exact silent_pure _
  split
  · exact silent_pure _
  split
  · exact silent_combinePromoted _ _ _
  split
  · exact (hf _ _).bind fun _ => silent_pure _
  split
  · split
    · exact (hf _ _).bind fun _ => (hf _ _).bind fun _ => silent_pure _
    · exact silent_pure _
  · exact silent_pure _

theorem silent_zeroToPower (a b : Number) : (zeroToPower a b).Silent := by
  refine (silent_ofDouble? _).bind fun x => ?_
  split
  · exact silent_pure _
  · exact silent_combinePromoted _ _ _

theorem silent_combinePower (hf : ∀ op ps, (reduce op ps).Silent) (base exponent : Expr) :
    (combinePower reduce base exponent).Silent := by
  unfold combinePower
  split
  · exact silent_pure _
  split
  · exact silent_pure _
  split
  · exact silent_pure _
  split
  · split
    · exact silent_zeroToPower _ _
    · exact silent_combinePromoted _ _ _
  split
  · split
    · exact (hf _ _).bind fun _ => (hf _ _).bind fun _ => silent_pure _
    · exact silent_pure _
  · exact silent_pure _

theorem silent_largerOf (l r : Expr) : (largerOf l r).Silent := by
  unfold largerOf
  split
  · refine (silent_ofDouble? _).bind fun _ => ?_
    exact (silent_ofDouble? _).bind fun _ => silent_pure _
  · exact silent_pure _

theorem silent_combineByRule (rule : PairRule) (l r : Expr) :
    (combineByRule rule l r).Silent := by
  cases rule with
  | keep => exact silent_pure _
  | larger => exact silent_largerOf l r
  | sumIntegers =>
    refine Silent.bind (silent_note rfl) fun _ => ?_
    split
    · exact silent_pure _
    · exact silent_pure _

theorem silent_combineObjects (hf : ∀ op ps, (reduce op ps).Silent) (op : Operator)
    (l r : Expr) : (combineObjects reduce op l r).Silent := by
  cases op with
  | add => exact silent_combineTerms hf l r
  | multiply => exact silent_combineFactors hf l r
  | power => exact silent_combinePower hf l r
  | define id => exact silent_pure _
  | extension x =>
    cases hfold : x.fold with
    | some fold =>
      simp only [combineObjects, hfold]
      exact silent_combineByRule fold.pair l r
    | none =>
      simp only [combineObjects, hfold]
      exact silent_pure none

/-- No operator binds a variable when it combines two operands. -/
theorem silent_combineAlone (hf : ∀ op ps, (reduce op ps).Silent) (op : Operator) (l r : Expr) :
    (combineAlone reduce op l r).Silent := by
  have hobjects := silent_combineObjects hf op l r
  unfold combineAlone
  split
  · split
    · exact hobjects
    · split
      · exact silent_combineNumbers _ _ _
      · exact hobjects
  · exact hobjects

/-! ## Folds -/

theorem silent_merge (hc : ∀ l r, (combine l r).Silent) (operand : Expr) (ps : List Expr) :
    (merge combine operand ps).Silent := by
  induction ps with
  | nil => exact silent_pure _
  | cons p ps ih =>
    rw [merge]
    refine (hc p operand).bind fun o => ?_
    cases o with
    | some e => exact silent_pure _
    | none => exact ih.bind fun _ => silent_pure _

theorem silent_combineStep (hf : ∀ op ps, (reduce op ps).Silent)
    (hc : ∀ l r, (combine l r).Silent) (op : Operator) (l r : Expr) :
    (combineStep reduce combine op l r).Silent := by
  refine (silent_combineAlone hf op l r).bind fun o => ?_
  cases o with
  | some e => exact silent_pure _
  | none =>
    cases l with
    | num n => exact silent_pure _
    | sym name role => exact silent_pure _
    | app head ps =>
      simp only
      split
      · refine (silent_merge hc r ps).bind fun o => ?_
        cases o with
        | some qs => exact (hf _ _).bind fun _ => silent_pure _
        | none => exact silent_pure _
      · exact silent_pure _

theorem silent_foldOperands (hc : ∀ l r, (combine l r).Silent) (op : Operator)
    (rest : List Expr) (running : Expr) : (foldOperands combine op running rest).Silent := by
  induction rest generalizing running with
  | nil => exact silent_pure running
  | cons r rest ih =>
    rw [foldOperands]
    refine (hc running r).bind fun o => ?_
    cases o with
    | some e => exact (silent_note rfl).bind fun _ => ih e
    | none => exact ih (join op running r)

theorem silent_finish (op : Operator) (e : Expr) : (finish op e).Silent := by
  unfold finish
  split
  · split
    · exact silent_fail _
    · exact silent_pure _
  · exact silent_pure _

theorem silent_reduceStep (hc : ∀ l r, (combine l r).Silent) (op : Operator) (ps : List Expr) :
    (reduceStep combine op ps).Silent := by
  unfold reduceStep
  split
  · split
    · exact silent_pure _
    · exact (silent_foldOperands hc op _ _).bind fun e => silent_finish op e
  · exact silent_pure _

/-! ## The simplifier -/

/-- At no depth does the simplifier bind anything. -/
theorem silent_within (depth : Nat) :
    (∀ op ps, (reduceWithin depth op ps).Silent) ∧
    ∀ op l r, (combineWithin depth op l r).Silent := by
  induction depth with
  | zero => exact ⟨fun _ _ => silent_fail _, fun _ _ _ => silent_fail _⟩
  | succ depth ih =>
    obtain ⟨hreduce, hcombine⟩ := ih
    constructor
    · intro op ps
      exact silent_reduceStep (hcombine op) op ps
    · intro op l r
      exact silent_combineStep hreduce (hcombine op) op l r

/-- Simplifying an application binds no variable. -/
theorem silent_reduce (op : Operator) (ps : List Expr) : (Simplify.reduce op ps).Silent :=
  (silent_within _).1 op ps

end Simplify

end Reckoner
