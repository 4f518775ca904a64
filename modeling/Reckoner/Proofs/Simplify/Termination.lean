import Reckoner.Proofs.Simplify.Weight

/-!
# The simplifier ends

Simplifying an application and combining two operands call each other, and no argument is a part of
another. The *rank* of such a call is twice the weight that its operands have side by side, and one
more for an application. Every call that a step makes has a smaller rank than the step: a fold
combines what it has so far, which never gets heavier, with the next operand; a rule simplifies
applications that are lighter than the two operands; and a merge folds a list again that got lighter
by taking up the operand.

So the depth that `reduce` and `combine` allot suffices, and the recursion can be done on the rank
alone: `reduceByRank` and `combineByRank` fail at once where a call has no smaller rank. Nothing is
assumed about what the arithmetic of numbers gives.
-/

namespace Reckoner

open Simplify

/-! ## Simplifications that are not cut short -/

namespace Logged

variable {α β : Type} {x y : Logged α} {f g : α → Logged β}

/-- The two are the same simplification, and it does not run out of depth. -/
def Matches (x y : Logged α) : Prop := x = y ∧ x.value ≠ .error .unfinished

theorem Matches.trans {z : Logged α} (h : x.Matches y) (h' : y.Matches z) : x.Matches z :=
  ⟨h.1.trans h'.1, h.2⟩

theorem matches_pure (a : α) : (pure a : Logged α).Matches (pure a) := by
  refine ⟨rfl, ?_⟩
  simp

theorem matches_note (e : Event) : (note e).Matches (note e) := by
  refine ⟨rfl, ?_⟩
  simp

theorem matches_ofDouble? (o : Option α) : (ofDouble? o).Matches (ofDouble? o) := by
  refine ⟨rfl, ?_⟩
  cases o <;> simp [ofDouble?]

/-- The second part matters only for the results that the first part has. -/
theorem Matches.bind (hx : x.Matches y) (hf : ∀ a, x.value = .ok a → (f a).Matches (g a)) :
    (x >>= f).Matches (y >>= g) := by
  obtain ⟨rfl, hne⟩ := hx
  show (andThen x f).Matches (andThen x g)
  unfold andThen
  cases hv : x.value with
  | error e =>
    rw [hv] at hne
    exact ⟨rfl, by simpa using hne⟩
  | ok a =>
    obtain ⟨heq, hfin⟩ := hf a hv
    simp only [heq]
    rw [heq] at hfin
    exact ⟨rfl, hfin⟩

end Logged

namespace Simplify

open Logged

/-! ## Ranks -/

/-- The rank of simplifying an application. -/
def reduceRank (op : Operator) (ps : List Expr) : Nat := 2 * weightOfList (shareOf op.name) ps + 1

/-- The rank of combining two operands. -/
def combineRank (op : Operator) (l r : Expr) : Nat := 2 * weightOfList (shareOf op.name) [l, r]

theorem combineRank_eq (op : Operator) (l r : Expr) :
    combineRank op l r = 2 * (weight l + weight r + shareOf op.name) := by
  rw [combineRank, weightOfList_pair]

/-- A lighter application of two operands has a smaller rank. -/
theorem reduceRank_pair_lt {op op' : Operator} {a b l r : Expr}
    (h : weight (.app op' [a, b]) < weight l + weight r + shareOf op.name) :
    reduceRank op' [a, b] < combineRank op l r := by
  have hle := weightOfList_le_weight op' [a, b]
  rw [combineRank_eq, reduceRank]
  omega

/-! ## Calls of a fold -/

variable {op : Operator} {c c' : Combiner} {f f' : Reducer} {l r : Expr}

/-- A fold calls steps whose operands weigh no more than all that is folded. -/
theorem matches_foldOperands (hc : CombinerLight op c) {n : Nat}
    (h : ∀ l r, weight l + weight r + shareOf op.name ≤ n → (c l r).Matches (c' l r))
    (rest : List Expr) (running : Expr) (hn : weight running + shares (shareOf op.name) rest ≤ n) :
    (foldOperands c op running rest).Matches (foldOperands c' op running rest) := by
  induction rest generalizing running with
  | nil => exact matches_pure running
  | cons r rest ih =>
    rw [shares_cons] at hn
    rw [foldOperands, foldOperands]
    refine (h running r (by omega)).bind fun o ho => ?_
    cases o with
    | some e =>
      have hlt := hc running r e ho
      exact (matches_note _).bind fun _ _ => ih e (by omega)
    | none =>
      have hle := weight_join_le op running r
      exact ih (join op running r) (by omega)

theorem matches_finish (op : Operator) (e : Expr) : (finish op e).Matches (finish op e) := by
  refine ⟨rfl, ?_⟩
  unfold finish
  split
  · split <;> simp
  · simp

theorem reduceStep_eq (c : Combiner) (op : Operator) (ps : List Expr) :
    reduceStep c op ps =
      if op.folds then
        match operands op ps with
        | [] => pure (emptyApplication op)
        | p :: qs => foldOperands c op p qs >>= finish op
      else pure (.app op ps) := rfl

/-- All calls of an application are of a smaller rank. -/
theorem matches_reduceStep (hc : CombinerLight op c) {ps : List Expr}
    (h : ∀ l r, combineRank op l r < reduceRank op ps → (c l r).Matches (c' l r)) :
    (reduceStep c op ps).Matches (reduceStep c' op ps) := by
  rw [reduceStep_eq, reduceStep_eq]
  by_cases hfolds : op.folds = true
  · simp only [hfolds, if_true]
    cases hops : operands op ps with
    | nil => exact matches_pure _
    | cons p qs =>
      have hshares := shares_operands_le op ps
      have hps : ps ≠ [] := by
        rintro rfl
        rw [hops, shares_cons, shares_nil] at hshares
        have hp := two_le_weight p
        omega
      have hsum := weightOfList_add_share (shareOf op.name) hps
      rw [hops, shares_cons] at hshares
      refine Matches.bind (matches_foldOperands hc (n := weightOfList (shareOf op.name) ps) ?_ qs p
        (by omega)) fun e _ => matches_finish op e
      intro l r hle
      refine h l r ?_
      rw [combineRank_eq, reduceRank]
      omega
  · simp only [hfolds]
    exact matches_pure _

/-! ## Calls of the rules -/

theorem matches_combineNumbers (op : Operator) (a b : Number) :
    (combineNumbers op a b).Matches (combineNumbers op a b) := by
  refine ⟨rfl, ?_⟩
  rw [value_combineNumbers]
  simp

theorem matches_combinePromoted (op : Operator) (a b : Number) :
    (combinePromoted op a b).Matches (combinePromoted op a b) :=
  (matches_ofDouble? _).bind fun _ _ => matches_combineNumbers _ _ _

/-- A rule may simplify any application of two operands that is lighter than its own. -/
theorem matches_pair
    (h : ∀ op' ps, reduceRank op' ps < combineRank op l r → (f op' ps).Matches (f' op' ps)) :
    ∀ op' a b, weight (.app op' [a, b]) < weight l + weight r + shareOf op.name →
      (f op' [a, b]).Matches (f' op' [a, b]) := by
  intro op' a b hlt
  exact h op' [a, b] (reduceRank_pair_lt hlt)

theorem matches_combineFactors (hf : ReducerLight f)
    (h : ∀ op ps, reduceRank op ps < combineRank .multiply l r → (f op ps).Matches (f' op ps)) :
    (combineFactors f l r).Matches (combineFactors f' l r) := by
  have hpair := matches_pair h
  rw [shareOf_multiply] at hpair
  unfold combineFactors
  split
  · exact matches_pure _
  split
  · exact matches_pure _
  split
  · exact matches_pure _
  split
  · exact matches_combinePromoted _ _ _
  next hnum =>
  have hn := not_both_numbers hnum
  split
  · next hs =>
    exact (hpair _ _ _ (weight_square_lt hs hn)).bind fun _ _ => matches_pure _
  · simp only
    split
    · next hs =>
      rw [Bool.and_eq_true, Bool.not_eq_true', Bool.and_eq_false_iff] at hs
      obtain ⟨hbase, hu⟩ := hs
      refine (hpair _ _ _ (weight_exponentSum_lt hbase hu)).bind fun x hx => ?_
      have hxw := hf _ _ _ hx
      exact (hpair _ _ _ (weight_powers_lt hbase hu hxw)).bind fun _ _ => matches_pure _
    · exact matches_pure _

theorem matches_combineTerms (hf : ReducerLight f)
    (h : ∀ op ps, reduceRank op ps < combineRank .add l r → (f op ps).Matches (f' op ps)) :
    (combineTerms f l r).Matches (combineTerms f' l r) := by
  have hpair := matches_pair h
  rw [shareOf_add] at hpair
  unfold combineTerms
  split
  · exact matches_pure _
  split
  · exact matches_pure _
  split
  · exact matches_combinePromoted _ _ _
  next hnum =>
  have hn := not_both_numbers hnum
  split
  · next hs =>
    exact (hpair _ _ _ (weight_double_lt hs hn)).bind fun _ _ => matches_pure _
  next hne =>
  have hne' : l.same r = false := by simpa using hne
  split
  · next hcl hcr =>
    split
    · next hs =>
      refine (hpair _ _ _ (weight_coefficients_lt hcl hcr hs hne')).bind fun x hx => ?_
      have hxw := hf _ _ _ hx
      exact (hpair _ _ _ (weight_like_lt hcl hcr hs hne' hxw)).bind fun _ _ => matches_pure _
    · exact matches_pure _
  · exact matches_pure _

theorem matches_zeroToPower (a b : Number) : (zeroToPower a b).Matches (zeroToPower a b) := by
  refine (matches_ofDouble? _).bind fun x _ => ?_
  split
  · exact matches_pure _
  · exact matches_combinePromoted _ _ _

theorem matches_combinePower (hf : ReducerLight f)
    (h : ∀ op ps, reduceRank op ps < combineRank .power l r → (f op ps).Matches (f' op ps)) :
    (combinePower f l r).Matches (combinePower f' l r) := by
  have hpair := matches_pair h
  rw [shareOf_power] at hpair
  unfold combinePower
  split
  · exact matches_pure _
  split
  · exact matches_pure _
  split
  · exact matches_pure _
  split
  · split
    · exact matches_zeroToPower _ _
    · exact matches_combinePromoted _ _ _
  split
  · next hp =>
    split
    · refine (hpair _ _ _ (weight_exponentProduct_lt hp)).bind fun x hx => ?_
      have hxw := hf _ _ _ hx
      exact (hpair _ _ _ (weight_tower_lt hp hxw)).bind fun _ _ => matches_pure _
    · exact matches_pure _
  · exact matches_pure _

theorem matches_largerOf (l r : Expr) : (largerOf l r).Matches (largerOf l r) := by
  unfold largerOf
  split
  · refine (matches_ofDouble? _).bind fun x _ => ?_
    exact (matches_ofDouble? _).bind fun y _ => matches_pure _
  · exact matches_pure _

theorem matches_combineByRule (rule : PairRule) (l r : Expr) :
    (combineByRule rule l r).Matches (combineByRule rule l r) := by
  cases rule with
  | keep => exact matches_pure _
  | larger => exact matches_largerOf l r
  | sumIntegers =>
    refine Matches.bind (matches_note _) fun _ _ => ?_
    split <;> exact matches_pure _

theorem matches_combineObjects (hf : ReducerLight f)
    (h : ∀ op' ps, reduceRank op' ps < combineRank op l r → (f op' ps).Matches (f' op' ps)) :
    (combineObjects f op l r).Matches (combineObjects f' op l r) := by
  cases op with
  | add => exact matches_combineTerms hf h
  | multiply => exact matches_combineFactors hf h
  | power => exact matches_combinePower hf h
  | define id => exact matches_pure _
  | extension x =>
    cases hfold : x.fold with
    | some fold =>
      simp only [combineObjects, hfold]
      exact matches_combineByRule fold.pair l r
    | none =>
      simp only [combineObjects, hfold]
      exact matches_pure none

/-- No operator simplifies an application of the same rank. -/
theorem matches_combineAlone (hf : ReducerLight f)
    (h : ∀ op' ps, reduceRank op' ps < combineRank op l r → (f op' ps).Matches (f' op' ps)) :
    (combineAlone f op l r).Matches (combineAlone f' op l r) := by
  have hobjects := matches_combineObjects hf h
  unfold combineAlone
  split
  · split
    · exact hobjects
    · split
      · exact matches_combineNumbers _ _ _
      · exact hobjects
  · exact hobjects

/-! ## Calls of a merge -/

theorem matches_merge {ps : List Expr} (h : ∀ p ∈ ps, (c p r).Matches (c' p r)) :
    (merge c r ps).Matches (merge c' r ps) := by
  induction ps with
  | nil => exact matches_pure _
  | cons p ps ih =>
    rw [merge, merge]
    refine (h p (by simp)).bind fun o _ => ?_
    cases o with
    | some e => exact matches_pure _
    | none =>
      have htail := ih fun q hq => h q (by simp [hq])
      exact htail.bind fun _ _ => matches_pure _

/-- Taking up an operand folds a lighter list again. -/
theorem matches_absorb (hc : CombinerLight op c) {ps : List Expr}
    (hcombine : ∀ p ∈ ps, (c p r).Matches (c' p r))
    (hreduce : ∀ qs, weightOfList (shareOf op.name) qs <
      weightOfList (shareOf op.name) ps + weight r + shareOf op.name →
        (f op qs).Matches (f' op qs)) :
    (absorb f c op ps r).Matches (absorb f' c' op ps r) := by
  refine (matches_merge hcombine).bind fun o ho => ?_
  cases o with
  | none => exact matches_pure _
  | some qs =>
    obtain ⟨as, p, bs, q, rfl, rfl, hq⟩ := merge_eq_some ho
    have hlt := weightOfList_regroup_lt as bs (hc p r q hq)
    exact (hreduce _ hlt).bind fun _ _ => matches_pure _

/-- All calls of a step are of a smaller rank. -/
theorem matches_combineStep (hf : ReducerLight f) (hc : CombinerLight op c)
    (hreduce : ∀ op' ps, reduceRank op' ps < combineRank op l r → (f op' ps).Matches (f' op' ps))
    (hcombine : ∀ a b, combineRank op a b < combineRank op l r → (c a b).Matches (c' a b)) :
    (combineStep f c op l r).Matches (combineStep f' c' op l r) := by
  unfold combineStep
  refine (matches_combineAlone hf hreduce).bind fun o _ => ?_
  cases o with
  | some e => exact matches_pure _
  | none =>
    cases l with
    | num n => exact matches_pure _
    | sym name role => exact matches_pure _
    | app head ps =>
      simp only
      split
      · next hown =>
        rw [Bool.and_eq_true, beq_iff_eq] at hown
        have hlist := weightOfList_le_weight head ps
        rw [hown.2] at hlist
        refine matches_absorb hc (fun p hp => hcombine p r ?_) fun qs hqs => hreduce op qs ?_
        · have hlt := weight_lt_of_mem head hp
          rw [combineRank_eq, combineRank_eq]
          omega
        · rw [combineRank_eq, reduceRank]
          omega
      · exact matches_pure _

/-! ## Depths -/

/-- Two depths that both exceed the rank give the same. -/
theorem matches_within (n : Nat) : ∀ d d', n ≤ d → n ≤ d' →
    (∀ op ps, reduceRank op ps < n →
      (reduceWithin d op ps).Matches (reduceWithin d' op ps)) ∧
    ∀ op l r, combineRank op l r < n →
      (combineWithin d op l r).Matches (combineWithin d' op l r) := by
  induction n with
  | zero =>
    intro d d' _ _
    exact ⟨fun _ _ h => absurd h (Nat.not_lt_zero _), fun _ _ _ h => absurd h (Nat.not_lt_zero _)⟩
  | succ n ih =>
    intro d d' hd hd'
    obtain ⟨d, rfl⟩ := Nat.exists_eq_add_of_le' (show 1 ≤ d by omega)
    obtain ⟨d', rfl⟩ := Nat.exists_eq_add_of_le' (show 1 ≤ d' by omega)
    obtain ⟨ihr, ihc⟩ := ih d d' (by omega) (by omega)
    obtain ⟨hlight, hlight'⟩ := light_within d
    constructor
    · intro op ps hrank
      exact matches_reduceStep (hlight' op) fun l r h => ihc op l r (by omega)
    · intro op l r hrank
      exact matches_combineStep hlight (hlight' op) (fun op' ps h => ihr op' ps (by omega))
        fun a b h => ihc op a b (by omega)

/-- Any depth above the rank gives what the allotted depth gives. -/
theorem matches_reduceWithin {op : Operator} {ps : List Expr} {depth : Nat}
    (h : reduceRank op ps < depth) : (reduceWithin depth op ps).Matches (reduce op ps) := by
  have hdepth : depthFor op ps = reduceRank op ps + 1 := rfl
  exact (matches_within (reduceRank op ps + 1) _ _ h (Nat.le_of_eq hdepth.symm)).1 op ps
    (Nat.lt_succ_self _)

theorem matches_combineWithin {op : Operator} {l r : Expr} {depth : Nat}
    (h : combineRank op l r < depth) : (combineWithin depth op l r).Matches (combine op l r) := by
  have hdepth : depthFor op [l, r] = combineRank op l r + 2 := rfl
  exact (matches_within (combineRank op l r + 1) _ _ h (by omega)).2 op l r (Nat.lt_succ_self _)

/-- The equation of simplifying an application, without a depth. -/
theorem matches_reduce (op : Operator) (ps : List Expr) :
    (reduce op ps).Matches (reduceStep (combine op) op ps) := by
  show (reduceWithin (reduceRank op ps + 1) op ps).Matches _
  exact matches_reduceStep ((light_within (reduceRank op ps)).2 op) fun _ _ h =>
    matches_combineWithin h

/-- The equation of combining two operands, without a depth. -/
theorem matches_combine (op : Operator) (l r : Expr) :
    (combine op l r).Matches (combineStep reduce (combine op) op l r) := by
  have hlight := light_within (combineRank op l r + 1)
  show (combineWithin (combineRank op l r + 1 + 1) op l r).Matches _
  exact matches_combineStep hlight.1 (hlight.2 op)
    (fun _ _ h => matches_reduceWithin (Nat.lt_succ_of_lt h))
    fun _ _ h => matches_combineWithin (Nat.lt_succ_of_lt h)

theorem matches_absorbInto (op : Operator) (ps : List Expr) (r : Expr) :
    (absorbInto op ps r).Matches (absorb reduce (combine op) op ps r) := by
  cases ps with
  | nil => exact matches_pure none
  | cons q qs =>
    have hlight := light_within (depthFor op (r :: q :: qs))
    have hsum := weightOfList_add_share (shareOf op.name) (List.cons_ne_nil r (q :: qs))
    have hlist := weightOfList_add_share (shareOf op.name) (List.cons_ne_nil q qs)
    have hdepth : depthFor op (r :: q :: qs) =
        2 * weightOfList (shareOf op.name) (r :: q :: qs) + 2 := rfl
    rw [shares_cons] at hsum
    refine matches_absorb (hlight.2 op) (fun p hp => matches_combineWithin ?_)
      fun ps' hps' => matches_reduceWithin ?_
    · obtain ⟨as, bs, heq⟩ := List.append_of_mem hp
      have hp : weight p + shareOf op.name ≤ shares (shareOf op.name) (q :: qs) := by
        rw [heq, shares_append, shares_cons]
        omega
      rw [combineRank_eq]
      omega
    · rw [reduceRank]
      omega

/-! ## Recursion on the rank -/

mutual

/-- Simplifies an application by recursion on the rank. -/
def reduceByRank (op : Operator) (ps : List Expr) : Logged Expr :=
  reduceStep
    (fun l r =>
      if _h : combineRank op l r < reduceRank op ps then combineByRank op l r
      else Logged.fail .unfinished)
    op ps
termination_by reduceRank op ps

/-- Combines two operands by recursion on the rank. -/
def combineByRank (op : Operator) (l r : Expr) : Logged (Option Expr) :=
  combineStep
    (fun op' ps =>
      if _h : reduceRank op' ps < combineRank op l r then reduceByRank op' ps
      else Logged.fail .unfinished)
    (fun a b =>
      if _h : combineRank op a b < combineRank op l r then combineByRank op a b
      else Logged.fail .unfinished)
    op l r
termination_by combineRank op l r

end

/-- By induction on the rank, the recursion on the rank computes the same. -/
theorem matches_byRank (n : Nat) :
    (∀ op ps, reduceRank op ps < n → (reduce op ps).Matches (reduceByRank op ps)) ∧
    ∀ op l r, combineRank op l r < n → (combine op l r).Matches (combineByRank op l r) := by
  induction n with
  | zero =>
    exact ⟨fun _ _ h => absurd h (Nat.not_lt_zero _), fun _ _ _ h => absurd h (Nat.not_lt_zero _)⟩
  | succ n ih =>
    obtain ⟨ihr, ihc⟩ := ih
    constructor
    · intro op ps hrank
      rw [reduceByRank]
      refine (matches_reduce op ps).trans (matches_reduceStep ?_ fun l r h => ?_)
      · exact fun l r e => weight_combine_lt
      · rw [dif_pos h]
        exact ihc op l r (by omega)
    · intro op l r hrank
      rw [combineByRank]
      refine (matches_combine op l r).trans
        (matches_combineStep ?_ ?_ (fun op' ps h => ?_) fun a b h => ?_)
      · exact fun op' ps e => weight_reduce_le
      · exact fun a b e => weight_combine_lt
      · rw [dif_pos h]
        exact ihr op' ps (by omega)
      · rw [dif_pos h]
        exact ihc op a b (by omega)

/-- Simplifying an application makes only calls of smaller rank. -/
theorem matches_reduceByRank (op : Operator) (ps : List Expr) :
    (reduce op ps).Matches (reduceByRank op ps) :=
  (matches_byRank (reduceRank op ps + 1)).1 op ps (Nat.lt_succ_self _)

/-- Combining two operands makes only calls of smaller rank. -/
theorem matches_combineByRank (op : Operator) (l r : Expr) :
    (combine op l r).Matches (combineByRank op l r) :=
  (matches_byRank (combineRank op l r + 1)).2 op l r (Nat.lt_succ_self _)

end Simplify

end Reckoner
