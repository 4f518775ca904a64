import Reckoner.Extensions
import Reckoner.Proofs.Simplify.Collect

/-!
# Operands that are folded

An associative operator whose only rule adds two integers shows what the fold itself does to the
operands. A late integer is regrouped into the first one, and the whole list is folded again; by
then it holds one integer only, so nothing combines any more and every operand is appended where it
was. The result has all operands of the splice, in their order, with the integers gathered in the
place of the first one.
-/

namespace Reckoner

open Simplify Reckoner.Expr Logged

/-! ## Gathering integers -/

/-- The integers among expressions. -/
def integers (es : List Expr) : List Int := es.filterMap toInt?

/-- The first integer gives way to the sum of all integers, and the others are left out. An integer
without another one stays as it is. -/
def gather : List Expr → List Expr
  | [] => []
  | e :: es =>
    match e.toInt? with
    | none => e :: gather es
    | some n =>
      (if integers es = [] then e else .int (n + (integers es).sum)) ::
        es.filter (!·.isInteger)

/-- A number is added to the first integer, if there is one. -/
def addToFirst? (n : Int) : List Expr → Option (List Expr)
  | [] => none
  | e :: es =>
    match e.toInt? with
    | none => (addToFirst? n es).map (e :: ·)
    | some m => some (.int (m + n) :: es)

variable {e r : Expr} {es ps : List Expr} {m n : Int}

theorem integers_cons_of_none (h : e.toInt? = none) : integers (e :: es) = integers es :=
  List.filterMap_cons_none h

theorem integers_cons_of_some (h : e.toInt? = some n) : integers (e :: es) = n :: integers es :=
  List.filterMap_cons_some h

theorem integers_append (es ps : List Expr) : integers (es ++ ps) = integers es ++ integers ps :=
  List.filterMap_append

theorem isInteger_of_none (h : e.toInt? = none) : e.isInteger = false := by simp [isInteger, h]

theorem isInteger_of_some (h : e.toInt? = some n) : e.isInteger = true := by simp [isInteger, h]

theorem integers_filter (es : List Expr) : integers (es.filter (!·.isInteger)) = [] := by
  refine List.filterMap_eq_nil_iff.2 fun e he => ?_
  simpa [isInteger] using (List.mem_filter.1 he).2

theorem addToFirst?_of_integers_eq_nil (h : integers es = []) : addToFirst? n es = none := by
  induction es with
  | nil => rfl
  | cons e es ih =>
    have he : e.toInt? = none := List.filterMap_eq_nil_iff.1 h e (by simp)
    rw [integers_cons_of_none he] at h
    simp [addToFirst?, he, ih h]

/-- What is gathered holds one integer at most, which is the sum. -/
theorem integers_gather (es : List Expr) :
    integers (gather es) = if integers es = [] then [] else [(integers es).sum] := by
  induction es with
  | nil => rfl
  | cons e es ih =>
    cases he : e.toInt? with
    | none => simpa [gather, he, integers_cons_of_none he] using ih
    | some n =>
      simp only [gather, he, integers_cons_of_some he, reduceCtorEq, if_false, List.sum_cons]
      split
      · next halone =>
        rw [integers_cons_of_some he, integers_filter, halone, List.sum_nil, add_zero]
      · rw [integers_cons_of_some rfl, integers_filter]

theorem gather_ne_nil (h : es ≠ []) : gather es ≠ [] := by
  cases es with
  | nil => exact absurd rfl h
  | cons e es =>
    unfold gather
    split <;> simp

theorem forall_mem_gather {P : Expr → Prop} (hint : ∀ n, P (.int n)) (h : ∀ e ∈ es, P e) :
    ∀ e ∈ gather es, P e := by
  induction es with
  | nil => exact h
  | cons e es ih =>
    rw [List.forall_mem_cons] at h
    unfold gather
    split
    · exact List.forall_mem_cons.2 ⟨h.1, ih h.2⟩
    · refine List.forall_mem_cons.2 ⟨?_, fun p hp => h.2 p (List.mem_of_mem_filter hp)⟩
      split
      · exact h.1
      · exact hint _

/-- One more operand is added to the first integer, or it comes last. -/
theorem gather_concat (es : List Expr) (r : Expr) :
    gather (es ++ [r]) =
      (r.toInt?.bind fun n => addToFirst? n (gather es)).getD (gather es ++ [r]) := by
  have hintegers : integers (es ++ [r]) = integers es ++ r.toInt?.toList := by
    rw [integers_append]
    cases hr : r.toInt? with
    | none => rw [integers_cons_of_none hr]; rfl
    | some n => rw [integers_cons_of_some hr]; rfl
  -- the induction looks for the first integer, which is where the sum stands
  induction es with
  | nil => cases hr : r.toInt? <;> simp [gather, addToFirst?, integers, hr]
  | cons e es ih =>
    cases he : e.toInt? with
    | none =>
      rw [List.cons_append, integers_cons_of_none he, integers_cons_of_none he] at hintegers
      simp only [List.cons_append, gather, he, ih hintegers, addToFirst?]
      cases r.toInt? with
      | none => rfl
      | some n => cases h : addToFirst? n (gather es) <;> simp [h]
    | some m =>
      rw [List.cons_append, integers_cons_of_some he, integers_cons_of_some he, List.cons_append,
        List.cons_inj_right] at hintegers
      have hhead : (if integers es = [] then e else .int (m + (integers es).sum)).toInt? =
          some (m + (integers es).sum) := by
        split
        · next halone => rw [he, halone, List.sum_nil, add_zero]
        · rfl
      simp only [List.cons_append, gather, he, addToFirst?, hhead, hintegers, List.filter_append]
      cases hr : r.toInt? with
      | none => simp [isInteger_of_none hr]
      | some n => simp [isInteger_of_some hr, add_assoc]

/-! ## The steps of the fold -/

section SumOfIntegers

variable {x : Extension} (hx : x.fold = some ⟨true, .sumIntegers⟩)

include hx

theorem isAssociative_of_fold : (Operator.extension x).isAssociative = true := by
  simp [Operator.isAssociative, hx]

theorem folds_of_fold : (Operator.extension x).folds = true := by
  simp [Operator.folds, hx]

theorem value_combineAlone_sumIntegers (f : Reducer) (l r : Expr) :
    (combineAlone f (.extension x) l r).value =
      .ok (r.toInt?.bind fun n => l.toInt?.map fun m => .int (m + n)) := by
  have hobjects : combineAlone f (.extension x) l r = combineByRule .sumIntegers l r := by
    unfold combineAlone
    split
    · simp only [combineObjects, hx]
    · simp only [combineObjects, hx]
  rw [hobjects, combineByRule]
  refine value_bind_eq_ok.2 ⟨(), rfl, ?_⟩
  cases l.toInt? <;> cases r.toInt? <;> rfl

theorem value_combine_of_flat_sumIntegers {l : Expr} (hl : l.hasHead x.name = false) (r : Expr) :
    (combine (.extension x) l r).value =
      .ok (r.toInt?.bind fun n => l.toInt?.map fun m => .int (m + n)) :=
  (value_combine_of_flat fun _ => hl).trans (value_combineAlone_sumIntegers hx _ l r)

/-- A merge adds the operand to the first integer, if both are there. -/
theorem value_merge_sumIntegers (hes : ∀ e ∈ es, e.hasHead x.name = false) :
    (merge (combine (.extension x)) r es).value =
      .ok (r.toInt?.bind fun n => addToFirst? n es) := by
  induction es with
  | nil => cases r.toInt? <;> rfl
  | cons e es ih =>
    rw [List.forall_mem_cons] at hes
    have hhead := value_combine_of_flat_sumIntegers hx hes.1 r
    cases hr : r.toInt? with
    | none =>
      rw [hr] at hhead ih
      exact value_bind_eq_ok.2 ⟨none, hhead, value_bind_eq_ok.2 ⟨none, ih hes.2, rfl⟩⟩
    | some n =>
      rw [hr] at hhead ih
      cases he : e.toInt? with
      | none =>
        rw [he] at hhead
        refine value_bind_eq_ok.2 ⟨none, hhead, value_bind_eq_ok.2 ⟨_, ih hes.2, ?_⟩⟩
        simp [addToFirst?, he]
      | some m =>
        rw [he] at hhead
        refine value_bind_eq_ok.2 ⟨_, hhead, ?_⟩
        simp [addToFirst?, he]

theorem value_reduce_singleton (he : e.hasHead x.name = false) :
    (reduce (.extension x) [e]).value = .ok e :=
  value_reduce_cons (folds_of_fold hx)
    (operands_of_flat fun _ => List.forall_mem_singleton.2 he) rfl

/-- The running result is made of operands: the next one is added to the first integer among them,
and they are folded again, or it is left beside them. -/
theorem value_combine_collected (hne : es ≠ []) (hes : ∀ e ∈ es, e.hasHead x.name = false) :
    (combine (.extension x) (collected (.extension x) es) r).value =
      match r.toInt?.bind fun n => addToFirst? n es with
      | none => .ok none
      | some us => (reduce (.extension x) us).value.map some := by
  match es, hne with
  | [e], _ =>
    have he : e.hasHead x.name = false := hes e (by simp)
    rw [collected, value_combine_of_flat_sumIntegers hx he]
    cases hr : r.toInt? with
    | none => rfl
    | some n =>
      cases hm : e.toInt? with
      | none => simp [addToFirst?, hm]
      | some m =>
        have hsum : (Expr.int (m + n)).hasHead x.name = false := rfl
        simp only [addToFirst?, hm, Option.bind_some, Option.map_some,
          value_reduce_singleton hx hsum]
        rfl
  | e :: e' :: es, _ =>
    -- several operands are no integer as a whole, so the operand is merged into the list
    have happ : (Expr.app (.extension x) (e :: e' :: es)).toInt? = none := rfl
    have halone := value_combineAlone_sumIntegers hx reduce (.app (.extension x) (e :: e' :: es)) r
    have hmerge := value_merge_sumIntegers hx (r := r) hes
    have hnone : (r.toInt?.bind fun n =>
        (Expr.app (.extension x) (e :: e' :: es)).toInt?.map fun m => Expr.int (m + n)) = none := by
      rw [happ]
      cases r.toInt? <;> rfl
    rw [hnone] at halone
    rw [collected_of_two_le (by simp), (matches_combine _ _ r).1, combineStep, value_bind, halone]
    simp only [Except.bind, isAssociative_of_fold hx, beq_self_eq_true, Bool.and_self, if_true]
    rw [absorb, value_bind, hmerge]
    cases r.toInt?.bind fun n => addToFirst? n (e :: e' :: es) with
    | none => rfl
    | some us =>
      simp only [Except.bind, value_bind, value_pure]
      cases (reduce (.extension x) us).value <;> rfl

theorem join_collected (hne : es ≠ []) (hes : ∀ e ∈ es, e.hasHead x.name = false) (r : Expr) :
    join (.extension x) (collected (.extension x) es) r =
      collected (.extension x) (es ++ [r]) := by
  match es, hne with
  | [e], _ =>
    rw [collected, join_of_flat fun _ => hes e (by simp)]
    rfl
  | e :: e' :: es, _ =>
    rw [collected_of_two_le (by simp), join_own (isAssociative_of_fold hx)]
    rfl

/-! ## The fold -/

/-- With one integer at most, the fold appends every operand. -/
theorem value_foldOperands_of_alone {rest : List Expr} (hne : es ≠ [])
    (hes : ∀ e ∈ es ++ rest, e.hasHead x.name = false) (hone : (integers (es ++ rest)).length ≤ 1) :
    (foldOperands (combine (.extension x)) (.extension x) (collected (.extension x) es)
      rest).value = .ok (collected (.extension x) (es ++ rest)) := by
  induction rest generalizing es with
  | nil => rw [List.append_nil]; rfl
  | cons r rest ih =>
    have hflat : ∀ e ∈ es, e.hasHead x.name = false := fun e he => hes e (by simp [he])
    have hbeside : (r.toInt?.bind fun n => addToFirst? n es) = none := by
      cases hr : r.toInt? with
      | none => rfl
      | some n =>
        refine addToFirst?_of_integers_eq_nil ?_
        rw [integers_append, integers_cons_of_some hr, List.length_append, List.length_cons] at hone
        exact List.eq_nil_of_length_eq_zero (by omega)
    have hcombine := value_combine_collected hx (r := r) hne hflat
    rw [hbeside] at hcombine
    rw [List.append_cons] at hes hone ⊢
    refine value_bind_eq_ok.2 ⟨none, hcombine, ?_⟩
    simp only
    rw [join_collected hx hne hflat r]
    exact ih (by simp) hes hone

theorem value_reduce_of_flat {e : Expr} (hflat : ∀ p ∈ ps, p.hasHead x.name = false)
    (hne : ps ≠ []) (h : ∀ p qs, ps = p :: qs →
      (foldOperands (combine (.extension x)) (.extension x) p qs).value = .ok e) :
    (reduce (.extension x) ps).value = .ok e := by
  obtain ⟨p, qs, rfl⟩ := List.exists_cons_of_ne_nil hne
  exact value_reduce_cons (folds_of_fold hx) (operands_of_flat fun _ => hflat) (h p qs rfl)

theorem value_reduce_of_alone (hne : es ≠ []) (hes : ∀ e ∈ es, e.hasHead x.name = false)
    (hone : (integers es).length ≤ 1) :
    (reduce (.extension x) es).value = .ok (collected (.extension x) es) := by
  refine value_reduce_of_flat hx hes hne ?_
  rintro p qs rfl
  exact value_foldOperands_of_alone hx (List.cons_ne_nil p []) hes hone

/-- The fold has gathered the operands that it has taken up. -/
theorem value_foldOperands_gather {rest : List Expr} (hne : es ≠ [])
    (hes : ∀ e ∈ es ++ rest, e.hasHead x.name = false) :
    (foldOperands (combine (.extension x)) (.extension x) (collected (.extension x) (gather es))
      rest).value = .ok (collected (.extension x) (gather (es ++ rest))) := by
  induction rest generalizing es with
  | nil => rw [List.append_nil]; rfl
  | cons r rest ih =>
    have hflat : ∀ e ∈ es, e.hasHead x.name = false := fun e he => hes e (by simp [he])
    have hgathered :=
      forall_mem_gather (P := fun e => e.hasHead x.name = false) (fun _ => rfl) hflat
    have hcombine := value_combine_collected hx (r := r) (gather_ne_nil hne) hgathered
    rw [List.append_cons] at hes ⊢
    have hrest := ih (List.append_ne_nil_of_right_ne_nil es (List.cons_ne_nil r [])) hes
    have hconcat := gather_concat es r
    cases hstep : r.toInt?.bind fun n => addToFirst? n (gather es) with
    | none =>
      rw [hstep] at hcombine hconcat
      rw [hconcat] at hrest
      refine value_bind_eq_ok.2 ⟨none, hcombine, ?_⟩
      simp only
      rw [join_collected hx (gather_ne_nil hne) hgathered r]
      exact hrest
    | some us =>
      rw [hstep] at hcombine hconcat
      obtain rfl : gather (es ++ [r]) = us := hconcat
      -- the list that is folded again holds one integer, the sum so far
      have hagain : (reduce (.extension x) (gather (es ++ [r]))).value =
          .ok (collected (.extension x) (gather (es ++ [r]))) := by
        refine value_reduce_of_alone hx (gather_ne_nil (by simp)) ?_ ?_
        · exact forall_mem_gather (fun _ => rfl) fun e he => hes e (List.mem_append_left _ he)
        · rw [integers_gather]
          split <;> simp
      simp only [hagain] at hcombine
      exact value_bind_eq_ok.2 ⟨_, hcombine, value_bind_eq_ok.2 ⟨(), rfl, hrest⟩⟩

/-- The parameters of an application, with nested applications spliced in, stay in their order; the
integers among them are gathered in the place of the first one. -/
theorem reduce_of_sumIntegers (ps : List Expr) :
    (reduce (.extension x) ps).value = .ok (match gather (flatten x.name ps) with
      | [] => .app (.extension x) []
      | [e] => e
      | es => .app (.extension x) es) := by
  have hoperands : operands (.extension x) ps = flatten x.name ps :=
    if_pos (isAssociative_of_fold hx)
  have hflat : ∀ e ∈ flatten x.name ps, e.hasHead x.name = false := fun e he =>
    (forall_mem_flatten (P := fun _ => True) (fun _ _ _ _ _ => trivial) ps (fun _ _ => trivial) e
      he).2
  cases hps : flatten x.name ps with
  | nil =>
    rw [(matches_reduce _ ps).1, reduceStep_eq, if_pos (folds_of_fold hx), hoperands, hps]
    rfl
  | cons e es =>
    rw [hps] at hflat
    have hsingle : collected (.extension x) (gather [e]) = e := by
      cases he : e.toInt? <;> simp [gather, he, integers, collected]
    have hfold := value_foldOperands_gather hx (List.cons_ne_nil e []) hflat
    rw [hsingle] at hfold
    rw [value_reduce_cons (folds_of_fold hx) (hoperands.trans hps) hfold]
    refine congrArg Except.ok ?_
    rw [List.singleton_append]
    cases hgather : gather (e :: es) with
    | nil => exact absurd hgather (gather_ne_nil (List.cons_ne_nil e es))
    | cons p qs => cases qs <;> rfl

end SumOfIntegers

/-- The integers of `REC(1, x, REC(y, 2), x, 3)` are gathered, and `x` stays in both places. -/
theorem reduce_of_sumIntegers_nested :
    Extension.recording.fold = some ⟨true, .sumIntegers⟩ ∧
      (reduce (.extension .recording) [.int 1, .free "x",
        .app (.extension .recording) [.free "y", .int 2], .free "x", .int 3]).value =
      .ok (.app (.extension .recording) [.int 6, .free "x", .free "y", .free "x"]) :=
  ⟨rfl, (reduce_of_sumIntegers rfl _).trans (by rfl)⟩

end Reckoner
