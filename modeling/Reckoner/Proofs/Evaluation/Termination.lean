import Reckoner.Proofs.Evaluation
import Reckoner.Proofs.Simplify.Termination

/-!
# Evaluation ends

Evaluation itself goes down the expression, so all that could go on for ever is the simplifier, and
`reduceByRank` and `combineByRank` show that it does not. What is left is to carry this through the
calculations that evaluate parameters and bind variables. The nesting depth that evaluation is given
does not hide anything either: from some depth on it makes no difference.
-/

namespace Reckoner

/-! ## Evaluation -/

/-- No simplification in the calculation runs out of depth, on any registries. -/
def Calculation.Finishes {α : Type} (x : Calculation α) : Prop :=
  ∀ s, (x s).value ≠ .error (.fault .unfinished)

namespace Expr

open Simplify Calculation

theorem yields_any : Material.any.Yields (fun _ => True) fun _ => True where
  number _ := trivial
  symbol _ _ := trivial
  stored _ _ := trivial
  bound _ _ _ _ := trivial
  reduce _ _ _ _ := trivial

/-- Neither a registry nor the text of an expression runs out of depth, and simplification does not
do so either. -/
theorem runsFor_finishes : Material.any.RunsFor (· ≠ .fault .unfinished)
    (Ends (fun _ => True) (· ≠ .fault .unfinished)) fun _ => True := by
  refine runsFor_ends yields_any (fun _ => by simp) (by simp) (fun {_ err} _ _ => ?_) ?_
  · cases err <;> simp [CalculationError.ofText]
  · intro op ps e _ _ _ he
    cases e with
    | unfinished => exact absurd he (matches_reduceByRank op ps).2
    | beyondDouble => simp [CalculationError.ofSimplify]
    | emptyProduct => simp [CalculationError.ofSimplify]

theorem finishes_evaluateWithin (depth : Nat) (e : Expr) : (e.evaluateWithin depth).Finishes :=
  fun s h => (runsFor_finishes.evaluateWithin depth e e.madeOf_any).fails s trivial _ h rfl

/-! ## Nesting -/

mutual

/-- A depth that the nesting does not exceed gives what any greater depth gives. -/
theorem evaluateWithin_of_le : {d d' : Nat} → (e : Expr) → e.deeperThan d = false → d ≤ d' →
    e.evaluateWithin d' = e.evaluateWithin d
  | _, _, .num n, _, _ => by
    rw [evaluateWithin, evaluateWithin]
  | _, _, .sym name role, _, _ => by
    rw [evaluateWithin, evaluateWithin]
  | 0, _, .app op ps, h, _ => by
    rw [deeperThan] at h
    cases h
  | d + 1, 0, .app op ps, _, hle => absurd hle (Nat.not_succ_le_zero d)
  | d + 1, d' + 1, .app op ps, h, hle => by
    rw [deeperThan, anyDeeperThan_eq_false] at h
    have hle' := Nat.le_of_succ_le_succ hle
    by_cases hop : ∃ id, op = .define id
    · obtain ⟨id, rfl⟩ := hop
      rw [evaluateWithin, evaluateWithin]
      exact evaluateDefinition_of_le id ps h hle'
    · rw [evaluateWithin, evaluateWithin, evaluateList_of_le ps h hle'] <;>
        exact fun id hid => hop ⟨id, hid⟩

theorem evaluateList_of_le : {d d' : Nat} → (ps : List Expr) → (∀ p ∈ ps, p.deeperThan d = false) →
    d ≤ d' → evaluateList d' ps = evaluateList d ps
  | _, _, [], _, _ => by
    rw [evaluateList, evaluateList]
  | d, d', p :: ps, h, hle => by
    rw [List.forall_mem_cons] at h
    rw [evaluateList, evaluateList, evaluateWithin_of_le p h.1 hle, evaluateList_of_le ps h.2 hle]

theorem evaluateDefinition_of_le : {d d' : Nat} → (id : StoreId) → (ps : List Expr) →
    (∀ p ∈ ps, p.deeperThan d = false) → d ≤ d' →
    evaluateDefinition d' id ps = evaluateDefinition d id ps
  | d, d', id, [target, e], h, hle => by
    rw [evaluateDefinition, evaluateDefinition, evaluateWithin_of_le e (h e (by simp)) hle]
  | _, _, _, [], _, _ => rfl
  | _, _, _, [_], _, _ => rfl
  | _, _, _, _ :: _ :: _ :: _, _, _ => rfl

end

theorem deeperThan_mono : {d d' : Nat} → (e : Expr) → e.deeperThan d = false → d ≤ d' →
    e.deeperThan d' = false := by
  intro d d' e
  induction e using Expr.induction generalizing d d' with
  | num n => intro _ _; cases d' <;> rfl
  | sym name role => intro _ _; cases d' <;> rfl
  | app op ps ih =>
    intro h hle
    cases d with
    | zero => cases h
    | succ d =>
      obtain ⟨d', rfl⟩ := Nat.exists_eq_add_of_le' (show 1 ≤ d' by omega)
      rw [deeperThan, anyDeeperThan_eq_false] at h ⊢
      exact fun p hp => ih p hp (h p hp) (by omega)

theorem exists_deeperThan_eq_false (e : Expr) : ∃ d, e.deeperThan d = false := by
  induction e using Expr.induction with
  | num n => exact ⟨0, rfl⟩
  | sym name role => exact ⟨0, rfl⟩
  | app op ps ih =>
    suffices h : ∃ d, ∀ p ∈ ps, p.deeperThan d = false by
      obtain ⟨d, hd⟩ := h
      refine ⟨d + 1, ?_⟩
      rw [deeperThan, anyDeeperThan_eq_false]
      exact hd
    clear op
    induction ps with
    | nil => exact ⟨0, by simp⟩
    | cons p ps ihps =>
      rw [List.forall_mem_cons] at ih
      obtain ⟨d, hd⟩ := ih.1
      obtain ⟨d', hd'⟩ := ihps ih.2
      refine ⟨max d d', List.forall_mem_cons.2 ⟨?_, fun q hq => ?_⟩⟩
      · exact deeperThan_mono p hd (Nat.le_max_left d d')
      · exact deeperThan_mono q (hd' q hq) (Nat.le_max_right d d')

/-! ## The calls of an evaluation -/

/-- Simplifying, combining and regrouping satisfy their equations without any depth; they are the
functions that `reduceByRank` and `combineByRank` define by recursion on the rank, every call having
a smaller rank than its caller; and no evaluation, on any registries and within any nesting, runs
out of the depth that the simplifier allots. The rank does not depend on the numbers, so nothing
here depends on what the arithmetic of numbers gives. -/
theorem evaluation_ends :
    (∀ op ps, reduce op ps = reduceStep (combine op) op ps ∧ reduce op ps = reduceByRank op ps) ∧
    (∀ op l r, combine op l r = combineStep reduce (combine op) op l r ∧
      combine op l r = combineByRank op l r) ∧
    (∀ op ps r, absorbInto op ps r = absorb reduce (combine op) op ps r ∧
      (absorbInto op ps r).value ≠ .error .unfinished) ∧
    ∀ e : Expr, (∀ depth s, (e.evaluateWithin depth s).value ≠ .error (.fault .unfinished)) ∧
      ∃ enough, ∀ depth, enough ≤ depth → e.evaluateWithin depth = e.evaluateWithin enough := by
  refine ⟨fun op ps => ⟨?_, (matches_reduceByRank op ps).1⟩, fun op l r => ⟨?_, ?_⟩, ?_, ?_⟩
  · exact (matches_reduce op ps).1
  · exact (matches_combine op l r).1
  · exact (matches_combineByRank op l r).1
  · intro op ps r
    have h := matches_absorbInto op ps r
    exact ⟨h.1, h.2⟩
  · intro e
    obtain ⟨d, hd⟩ := exists_deeperThan_eq_false e
    exact ⟨fun depth => finishes_evaluateWithin depth e, d,
      fun depth hle => evaluateWithin_of_le e hd hle⟩

end Expr

end Reckoner
