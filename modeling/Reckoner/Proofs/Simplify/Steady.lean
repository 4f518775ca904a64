import Reckoner.Proofs.Simplify.Normal

/-!
# Sums that are folded

A fold compares the terms that it has so far, as one sum, with the next term: `x + y + 3 * (x + y)`
becomes `4 * (x + y)`. In what comes out no sum has such terms any more. Normal forms do not say
this, since they only look at two parameters at a time, but it goes through all steps in the same
way. The terms of a sum keep their order; the factors of a product do not, so nothing of the kind is
true of products.
-/

namespace Reckoner

open Simplify Reckoner.Expr

/-- The operator has no rule for a parameter and the application to the ones before it, if those are
at least two. -/
def Simplify.PrefixesApart (op : Operator) (ps : List Expr) : Prop :=
  ∀ k (h : k < ps.length), 2 ≤ k → Apart op (.app op (ps.take k)) ps[k]

/-- In every sum of the expression, no term goes with the sum of the terms before it. -/
def Expr.Steady (e : Expr) : Prop := e.EveryNode fun op ps => op = .add → PrefixesApart .add ps

namespace Simplify

variable {op : Operator} {l r : Expr}

theorem steady_app {head : Operator} {ps : List Expr} : (Expr.app head ps).Steady ↔
    (head = .add → PrefixesApart .add ps) ∧ ∀ p ∈ ps, p.Steady := everyNode_app

@[simp] theorem steady_num {n : Number} : (Expr.num n).Steady := everyNode_num

theorem prefixesApart_of_length_le {ps : List Expr} (h : ps.length ≤ 2) : PrefixesApart op ps := by
  intro k hk htwo
  omega

/-- One more term may follow if the sum so far leaves it alone. -/
theorem PrefixesApart.concat {ps : List Expr} (h : PrefixesApart op ps)
    (hr : Apart op (.app op ps) r) : PrefixesApart op (ps ++ [r]) := by
  intro k hk htwo
  rw [List.length_append, List.length_singleton] at hk
  by_cases hlast : k < ps.length
  · rw [List.take_append_of_le_length (by omega), List.getElem_append_left hlast]
    exact h k hlast htwo
  · obtain rfl : k = ps.length := by omega
    have htake : (ps ++ [r]).take ps.length = ps := List.take_left' rfl
    have hget : (ps ++ [r])[ps.length] = r := by simp
    rw [htake, hget]
    exact hr

/-! ## Steps -/

/-- The simplifier of applications gives steady expressions for steady parameters. -/
def ReducerSteady (f : Reducer) : Prop :=
  ∀ op ps e, op.IsProper → (∀ p ∈ ps, p.Steady) → (f op ps).value = .ok e → e.Steady

/-- The step gives steady expressions for steady operands, and leaves two alone only where the
operator has no rule for them. -/
structure CombinerSteady (op : Operator) (c : Combiner) : Prop where
  some : ∀ {l r e}, l.Steady → r.Steady → (c l r).value = .ok (some e) → e.Steady
  none : ∀ {l r}, (c l r).value = .ok none → Apart op l r

theorem steady_powerParts {e : Expr} (h : e.Steady) :
    e.powerParts.1.Steady ∧ e.powerParts.2.Steady :=
  inherited_everyNode.powerParts steady_num h

theorem steady_coefficient? {e term : Expr} {c : Number} (h : e.Steady)
    (hc : e.coefficient? = some (c, term)) : term.Steady := by
  rcases coefficient?_eq_some hc with ⟨-, -, rfl⟩ | ⟨head, ps, rfl, -, hterm⟩
  · exact h
  · have hps := (steady_app.1 h).2
    rcases hterm with rfl | ⟨-, rfl⟩
    · exact hps term (by simp)
    · exact steady_app.2 ⟨by simp, fun p hp => hps p (by simp [hp])⟩

/-- Whatever becomes of two steady operands is steady. -/
theorem Outcome.steady {reduce : Reducer} {e : Expr} (hf : ReducerSteady reduce)
    (h : Outcome reduce op l r e) (hl : l.Steady) (hr : r.Steady) : e.Steady := by
  have hadd := Operator.isArithmetic_add.isProper
  have hmul := Operator.isArithmetic_multiply.isProper
  have hpow := Operator.isArithmetic_power.isProper
  have hlp := steady_powerParts hl
  have hrp := steady_powerParts hr
  cases h with
  | alike | promoted | zeroFactor | zeroExponent | oneBase | zeroBase | summed => exact steady_num
  | oneFactorLeft | zeroTermLeft => exact hr
  | oneFactorRight | zeroTermRight | oneExponent => exact hl
  | square _ he => exact hf _ _ _ hpow (by simp [hl]) he
  | powers _ hx he =>
    have hxs := hf _ _ _ hadd (by simp [hlp.2, hrp.2]) hx
    exact hf _ _ _ hpow (by simp [hlp.1, hxs]) he
  | double _ he => exact hf _ _ _ hmul (by simp [hl]) he
  | like hcl _ _ hx he =>
    have ht := steady_coefficient? hl hcl
    have hxs := hf _ _ _ hadd (by simp) hx
    exact hf _ _ _ hmul (by simp [ht, hxs]) he
  | tower hp _ hx he =>
    simp only [powerParts, hp, Option.getD_some] at hlp
    have hxs := hf _ _ _ hmul (by simp [hlp.2, hr]) hx
    exact hf _ _ _ hpow (by simp [hlp.1, hxs]) he
  | chosen h =>
    rcases h with rfl | rfl
    · exact hl
    · exact hr

/-- A step keeps sums steady if the calls that it makes do. -/
theorem combinerSteady_combineStep {reduce : Reducer} {combine : Combiner} (hop : op.IsProper)
    (hf : ReducerSteady reduce) (hc : CombinerSteady op combine) :
    CombinerSteady op (combineStep reduce combine op) := by
  constructor
  · intro l r e hl hr h
    rcases combineStep_eq_some h with ho | ⟨ps, as, p, bs, q, ⟨-, head, rfl, -⟩, rfl, hq, he⟩
    · exact ho.steady hf hl hr
    · have hps := (steady_app.1 hl).2
      have hqs : q.Steady := hc.some (hps p (by simp)) hr hq
      refine hf _ _ _ hop (fun x hx => ?_) he
      simp only [List.mem_append, List.mem_cons] at hx
      rcases hx with hx | rfl | hx
      · exact hps x (by simp [hx])
      · exact hqs
      · exact hps x (by simp [hx])
  · intro l r h
    exact apart_of_combineAlone (combineStep_eq_none h).1

/-! ## Folds -/

/-- Joining an operand that the result so far leaves alone keeps the sum steady. -/
theorem steady_join (hop : op.IsProper) (hl : l.Steady) (hr : r.Steady) (hapart : Apart op l r) :
    (join op l r).Steady := by
  have hpair : (Expr.app op [l, r]).Steady :=
    steady_app.2 ⟨fun _ => prefixesApart_of_length_le (Nat.le_refl 2), by simp [hl, hr]⟩
  unfold Simplify.join
  split
  · next head ps =>
    split
    · next h =>
      rw [Bool.and_eq_true, beq_iff_eq] at h
      obtain ⟨hnode, hps⟩ := steady_app.1 hl
      refine steady_app.2 ⟨?_, fun x hx => ?_⟩
      · rintro rfl
        obtain rfl : op = .add := hop.1 .add Operator.isArithmetic_add h.2.symm
        exact (hnode rfl).concat hapart
      · rcases List.mem_append.1 hx with hx | hx
        · exact hps x hx
        · rw [List.mem_singleton] at hx
          exact hx ▸ hr
    · exact hpair
  · exact hpair

theorem steady_coefficientFirst {e : Expr} (h : e.Steady) : (coefficientFirst e).Steady := by
  unfold coefficientFirst
  split
  · next head p ps =>
    split
    · have hps := (steady_app.1 h).2
      refine steady_app.2 ⟨by simp, fun x hx => hps x ?_⟩
      simp only [List.mem_append, List.mem_cons, List.mem_filter] at hx ⊢
      rcases hx with hx | rfl | hx
      · exact .inr hx.1
      · exact .inl rfl
      · exact .inr hx.1
    · exact h
  · exact h

theorem steady_emptyApplication (op : Operator) : (emptyApplication op).Steady := by
  have hempty : (Expr.app op []).Steady :=
    steady_app.2 ⟨fun _ => prefixesApart_of_length_le (by simp), by simp⟩
  cases op with
  | add | multiply => exact steady_num
  | power | define | extension => exact hempty

/-- The fold keeps sums steady if its steps do. -/
theorem reducerSteady_reduceStep {combine : Operator → Combiner}
    (hc : ∀ op : Operator, op.IsProper → CombinerSteady op (combine op)) :
    ReducerSteady fun op ps => reduceStep (combine op) op ps := by
  intro op ps e hop hps h
  have hcop := hc op hop
  rcases reduceStep_eq_ok h with ⟨hfolds, rfl⟩ | ⟨-, -, rfl⟩ | ⟨p, qs, e', -, heq, hfold, hfin⟩
  · refine steady_app.2 ⟨?_, hps⟩
    rintro rfl
    cases hfolds
  · exact steady_emptyApplication op
  · have hops : ∀ x ∈ operands op ps, x.Steady :=
      fun x hx => (forall_mem_operands inherited_everyNode hps x hx).1
    rw [heq] at hops
    have he' := foldOperands_induction
      (I := fun l rest => l.Steady ∧ ∀ x ∈ rest, x.Steady)
      (fun l r rest x hinv hx =>
        ⟨hcop.some hinv.1 (hinv.2 r (by simp)) hx, fun y hy => hinv.2 y (by simp [hy])⟩)
      (fun l r rest hinv hx =>
        ⟨steady_join hop hinv.1 (hinv.2 r (by simp)) (hcop.none hx),
          fun y hy => hinv.2 y (by simp [hy])⟩)
      ⟨hops p (by simp), fun x hx => hops x (by simp [hx])⟩ hfold
    rcases finish_eq_ok hfin with ⟨rfl, -, rfl⟩ | ⟨-, rfl⟩
    · exact steady_coefficientFirst he'.1
    · exact he'.1

/-- A simplified application to steady parameters is steady. -/
theorem steady_reduce {ps : List Expr} {e : Expr} (hop : op.IsProper) (hps : ∀ p ∈ ps, p.Steady)
    (h : (reduce op ps).value = .ok e) : e.Steady :=
  (within_induction (R := ReducerSteady) (C := fun op c => op.IsProper → CombinerSteady op c)
    (fun _ _ _ _ _ h => by simp at h)
    (fun _ _ => ⟨fun _ _ h => by simp at h, fun h => by simp at h⟩)
    (fun _ hc => reducerSteady_reduceStep hc)
    (fun _ _ _ hf hc hop => combinerSteady_combineStep hop hf (hc hop))
    (depthFor op ps)).1 op ps e hop hps h

end Simplify

end Reckoner
