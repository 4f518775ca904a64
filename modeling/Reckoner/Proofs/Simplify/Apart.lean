import Reckoner.Proofs.Simplify.Material
import Reckoner.Simplify.Basic

/-!
# Operands that stay side by side

A product or a sum leaves two operands alone exactly when none of its rules applies. Which rules
apply does not depend on the simplifier of the applications that the rules build, nor on the order
of the operands of a sum or product. Two numbers never stay side by side in a sum or a product.
-/

namespace Reckoner

open Simplify Logged

/-! ## Sameness -/

theorem Number.same_comm (a b : Number) : a.same b = b.same a := by
  have hdouble : ∀ x y : Float, sameDouble x y = sameDouble y x := fun x y => by
    unfold sameDouble
    rw [Bool.beq_comm, Bool.and_comm]
  cases a <;> cases b <;> simp [same, plain, hdouble, Bool.beq_comm]

namespace Expr

mutual

theorem same_comm : (a b : Expr) → a.same b = b.same a
  | .num a, .num b => by simp only [same, a.same_comm b]
  | .sym s _, .sym t _ => by simp only [same, Bool.beq_comm]
  | .app f ps, .app g qs => by
    simp only [same, sameList_comm ps qs, Bool.beq_comm (a := f.name)]
  | .num _, .sym _ _ => rfl
  | .num _, .app _ _ => rfl
  | .sym _ _, .num _ => rfl
  | .sym _ _, .app _ _ => rfl
  | .app _ _, .num _ => rfl
  | .app _ _, .sym _ _ => rfl

theorem sameList_comm : (ps qs : List Expr) → sameList ps qs = sameList qs ps
  | [], [] => rfl
  | p :: ps, q :: qs => by simp only [sameList, same_comm p q, sameList_comm ps qs]
  | [], _ :: _ => rfl
  | _ :: _, [] => rfl

end

theorem isNumber_eq_of_same {a b : Expr} (h : a.same b = true) : a.isNumber = b.isNumber := by
  cases a <;> cases b <;> simp_all [same, isNumber]

end Expr

namespace Simplify

open Reckoner.Expr

/-! ## Rules that do not apply -/

/-- No rule of a product applies to the two operands. -/
structure FactorsApart (l r : Expr) : Prop where
  zero : l.isZero = false ∧ r.isZero = false
  one : l.isOne = false ∧ r.isOne = false
  number : l.isNumber = false ∨ r.isNumber = false
  same : l.same r = false
  /-- They are not powers of one base, unless neither is a power with an exponent of its own. -/
  power : l.powerParts.1.same r.powerParts.1 = true →
    l.powerParts.2.isUnit = true ∧ r.powerParts.2.isUnit = true

/-- No rule of a sum applies to the two operands. -/
structure TermsApart (l r : Expr) : Prop where
  zero : l.isZero = false ∧ r.isZero = false
  number : l.isNumber = false ∨ r.isNumber = false
  same : l.same r = false
  /-- They are not multiples of one term. -/
  like : ∀ a term b term', l.coefficient? = some (a, term) → r.coefficient? = some (b, term') →
    term.same term' = false

theorem FactorsApart.symm {l r : Expr} (h : FactorsApart l r) : FactorsApart r l where
  zero := h.zero.symm
  one := h.one.symm
  number := h.number.symm
  same := by rw [same_comm, h.same]
  power hb := (h.power (by rw [same_comm, hb])).symm

theorem TermsApart.symm {l r : Expr} (h : TermsApart l r) : TermsApart r l where
  zero := h.zero.symm
  number := h.number.symm
  same := by rw [same_comm, h.same]
  like a term b term' ha hb := by rw [same_comm, h.like b term' a term hb ha]

/-- The operator has no rule for the two operands. -/
def Apart (op : Operator) (l r : Expr) : Prop :=
  ∀ reduce : Reducer, (combineAlone reduce op l r).value = .ok none

variable {reduce : Reducer} {l r : Expr}

/-- Two numbers of one kind are always combined by a sum or a product. -/
theorem combineNumbers_ne_none {op : Operator} (hop : op.IsMonoidal) {a b : Number}
    (h : a.sameKind b = true) : (combineNumbers op a b).value ≠ .ok none := by
  rw [value_combineNumbers]
  intro hnone
  rcases hop with rfl | rfl
  · have hsome := Number.isSome_addAlike? a b
    simp_all [Operator.compute?]
  · have hsome := Number.isSome_mulAlike? a b
    simp_all [Operator.compute?]

/-- Numbers of two kinds are brought to one and combined. -/
theorem combinePromoted_ne_none {op : Operator} (hop : op.IsMonoidal) {a b : Number} :
    (combinePromoted op a b).value ≠ .ok none := by
  intro h
  obtain ⟨⟨c, d⟩, hcd, h'⟩ := value_bind_eq_ok.1 h
  cases hp : a.promote? b with
  | none => simp [hp, ofDouble?] at hcd
  | some r =>
    simp only [hp, ofDouble?, value_done, Except.ok.injEq] at hcd
    subst hcd
    exact combineNumbers_ne_none hop (Number.sameKind_of_promote? hp) h'

theorem bind_some_ne_none {α β : Type} {x : Logged α} {f : α → β} :
    (x >>= fun a => pure (some (f a)) : Logged (Option β)).value ≠ .ok none := by
  intro h
  obtain ⟨a, -, h'⟩ := value_bind_eq_ok.1 h
  simp at h'

/-- Two factors are left alone exactly if none of the rules for factors applies. -/
theorem combineFactors_eq_none :
    (combineFactors reduce l r).value = .ok none ↔ FactorsApart l r := by
  constructor
  · intro h
    unfold combineFactors at h
    split at h
    · simp at h
    -- each rule that applies gives a result, so all of them have to fail
    next hz =>
    split at h
    · simp at h
    next hl =>
    split at h
    · simp at h
    next hr =>
    rw [Bool.or_eq_true, not_or, Bool.not_eq_true, Bool.not_eq_true] at hz
    rw [Bool.not_eq_true] at hl hr
    split at h
    · exact absurd h (combinePromoted_ne_none (.inr rfl))
    next hnum =>
    split at h
    · exact absurd h bind_some_ne_none
    next hs =>
    simp only at h
    split at h
    · obtain ⟨x, -, h'⟩ := value_bind_eq_ok.1 h
      exact absurd h' bind_some_ne_none
    next hp =>
    exact ⟨hz, ⟨hl, hr⟩, not_both_numbers hnum, by simpa using hs, fun hb => by simpa [hb] using hp⟩
  · intro h
    unfold combineFactors
    have hp : (l.powerParts.1.same r.powerParts.1 &&
        !(l.powerParts.2.isUnit && r.powerParts.2.isUnit)) = false := by
      by_cases hb : l.powerParts.1.same r.powerParts.1 = true
      · obtain ⟨hm, hn⟩ := h.power hb
        simp [hm, hn]
      · simp [hb]
    simp only [h.zero.1, h.zero.2, h.one.1, h.one.2, Bool.or_self, Bool.false_eq_true, if_false]
    split
    · rcases h.number with hn | hn <;> cases hn
    · simp only [h.same, hp, Bool.false_eq_true, if_false, value_pure]

/-- Two terms are left alone exactly if none of the rules for terms applies. -/
theorem combineTerms_eq_none :
    (combineTerms reduce l r).value = .ok none ↔ TermsApart l r := by
  constructor
  · intro h
    unfold combineTerms at h
    split at h
    · simp at h
    next hzl =>
    split at h
    · simp at h
    next hzr =>
    rw [Bool.not_eq_true] at hzl hzr
    split at h
    · exact absurd h (combinePromoted_ne_none (.inl rfl))
    next hnum =>
    split at h
    · exact absurd h bind_some_ne_none
    next hs =>
    refine ⟨⟨hzl, hzr⟩, not_both_numbers hnum, by simpa using hs, fun a term b term' ha hb => ?_⟩
    simp only [ha, hb] at h
    split at h
    · obtain ⟨x, -, h'⟩ := value_bind_eq_ok.1 h
      exact absurd h' bind_some_ne_none
    · next hsame => simpa using hsame
  · intro h
    unfold combineTerms
    simp only [h.zero.1, h.zero.2, Bool.false_eq_true, if_false]
    split
    · rcases h.number with hn | hn <;> cases hn
    · simp only [h.same, Bool.false_eq_true, if_false]
      split
      · next ha hb => simp only [h.like _ _ _ _ ha hb, Bool.false_eq_true, if_false, value_pure]
      · rfl

/-! ## Operators without a rule -/

theorem combineAlone_multiply_eq_none :
    (combineAlone reduce .multiply l r).value = .ok none ↔ FactorsApart l r := by
  unfold combineAlone
  split
  · next a b =>
    show (if a.sameKind b then combineNumbers .multiply a b
      else combineFactors reduce (.num a) (.num b)).value = .ok none ↔ _
    split
    · next hkind =>
      refine iff_of_false (combineNumbers_ne_none (.inr rfl) hkind) fun h => ?_
      rcases h.number with hn | hn <;> cases hn
    · exact combineFactors_eq_none
  · exact combineFactors_eq_none

theorem combineAlone_add_eq_none :
    (combineAlone reduce .add l r).value = .ok none ↔ TermsApart l r := by
  unfold combineAlone
  split
  · next a b =>
    show (if a.sameKind b then combineNumbers .add a b
      else combineTerms reduce (.num a) (.num b)).value = .ok none ↔ _
    split
    · next hkind =>
      refine iff_of_false (combineNumbers_ne_none (.inl rfl) hkind) fun h => ?_
      rcases h.number with hn | hn <;> cases hn
    · exact combineTerms_eq_none
  · exact combineTerms_eq_none

theorem apart_multiply : Apart .multiply l r ↔ FactorsApart l r :=
  ⟨fun h => combineAlone_multiply_eq_none.1 (h fun _ _ => Logged.fail .unfinished),
    fun h _ => combineAlone_multiply_eq_none.2 h⟩

theorem apart_add : Apart .add l r ↔ TermsApart l r :=
  ⟨fun h => combineAlone_add_eq_none.1 (h fun _ _ => Logged.fail .unfinished),
    fun h _ => combineAlone_add_eq_none.2 h⟩

/-- Two operands are numbers of one kind, whatever the simplifier, or left to the structural
rules. -/
theorem combineAlone_eq (reduce reduce' : Reducer) (op : Operator) (l r : Expr) :
    combineAlone reduce op l r = combineAlone reduce' op l r ∨
      combineAlone reduce op l r = combineObjects reduce op l r ∧
        combineAlone reduce' op l r = combineObjects reduce' op l r := by
  cases l with
  | num a =>
    cases r with
    | num b =>
      simp only [combineAlone]
      split
      · exact .inr ⟨rfl, rfl⟩
      · split
        · exact .inl rfl
        · exact .inr ⟨rfl, rfl⟩
    | sym name role => exact .inr ⟨rfl, rfl⟩
    | app op ps => exact .inr ⟨rfl, rfl⟩
  | sym name role => exact .inr ⟨rfl, rfl⟩
  | app op ps => exact .inr ⟨rfl, rfl⟩

/-- Whether a power is left alone does not depend on the simplifier inside of it. -/
theorem combinePower_eq_none_congr (h : (combinePower reduce l r).value = .ok none)
    (reduce' : Reducer) : (combinePower reduce' l r).value = .ok none := by
  unfold combinePower at h ⊢
  split at h
  · simp at h
  next hz =>
  split at h
  · simp at h
  next ho =>
  split at h
  · simp at h
  next hb =>
  simp only [hz, ho, hb, Bool.false_eq_true, if_false]
  split at h
  · exact h
  next hnum =>
  split at h
  · split at h
    · obtain ⟨x, -, h'⟩ := value_bind_eq_ok.1 h
      exact absurd h' bind_some_ne_none
    · next hr => simp [hr]
  · rfl

/-- Whether an operator has a rule for two operands does not depend on the simplifier of the
applications that the rule would build. -/
theorem apart_of_combineAlone {op : Operator} (h : (combineAlone reduce op l r).value = .ok none) :
    Apart op l r := by
  intro reduce'
  rcases combineAlone_eq reduce reduce' op l r with heq | ⟨heq, heq'⟩
  · exact heq ▸ h
  rw [heq] at h
  rw [heq']
  cases op with
  | add => exact combineTerms_eq_none.2 (combineTerms_eq_none.1 h)
  | multiply => exact combineFactors_eq_none.2 (combineFactors_eq_none.1 h)
  | power => exact combinePower_eq_none_congr h reduce'
  | define id => exact h
  | extension x => exact h

/-! ## Steps that leave two operands alone -/

/-- What a step leaves alone no rule applies to. -/
theorem apart_of_combine {op : Operator} (h : (combine op l r).value = .ok none) : Apart op l r :=
  apart_of_combineAlone (combineStep_eq_none h).1

/-- Two operands without a rule are left alone if there is nothing to regroup. -/
theorem combine_eq_none {op : Operator} (h : Apart op l r)
    (hl : op.isAssociative = false ∨ l.hasHead op.name = false) :
    (combine op l r).value = .ok none := by
  refine combineStep_of_none (h _) ?_
  rintro ps ⟨hassoc, head, rfl, hname⟩
  rcases hl with hl | hl
  · rw [hassoc] at hl
    cases hl
  · simp [hasHead, hname] at hl

end Simplify

end Reckoner
