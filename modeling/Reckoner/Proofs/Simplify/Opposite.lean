import Reckoner.Proofs.Simplify.Monomial
import Reckoner.Proofs.Simplify.Power

/-!
# Opposite terms

An expression and its product with minus one are multiples of one term with opposite coefficients,
and their sum is zero, as long as the product changes nothing but the coefficient. There are three
ways in which it changes more. The new coefficient may be the base of a factor: `-1 * (-1) ^ x`
becomes `(-1) ^ (1 + x)`. The new coefficient and some factors after it may be the base of a later
one. And a new coefficient of one goes away: `-1 * (-1 * (x + y))` becomes `x + y`, and next to it
the terms of the sum are terms of their own.
-/

namespace Reckoner

open Simplify Reckoner.Expr Logged

/-- A canonical number is determined by its value, unless it is one. -/
theorem Number.IsCanonical.eq_ofRat {c : Number} {q : ℚ} (h : c.IsCanonical)
    (hc : c.toRat? = some q) (hq : q ≠ 1) : c = .ofRat q := by
  have hplain : c.plain = .ofRat q := by rw [h.plain_eq, Number.value_eq hc]
  cases c with
  | unit => exact absurd (Option.some.inj hc).symm hq
  | _ => exact hplain

namespace Simplify

variable {op : Operator} {l r e term : Expr} {ps : List Expr}

/-! ## Operands side by side -/

theorem value_foldOperands_append {combine : Combiner} {as bs : List Expr}
    (h : (foldOperands combine op l as).value = .ok e) :
    (foldOperands combine op l (as ++ bs)).value = (foldOperands combine op e bs).value := by
  induction as generalizing l with
  | nil =>
    cases h
    rfl
  | cons a as ih =>
    obtain ⟨o, ho, h'⟩ := value_bind_eq_ok.1 h
    rw [List.cons_append, foldOperands, value_bind, ho]
    cases o with
    | some x =>
      obtain ⟨-, -, hfold⟩ := value_bind_eq_ok.1 h'
      exact ih hfold
    | none => exact ih h'

theorem operands_cons (op : Operator) (p : Expr) (ps : List Expr) :
    operands op (p :: ps) = operands op [p] ++ operands op ps := by
  unfold operands
  split
  · simp [flatten]
  · rfl

/-- The operands that a normal expression contributes to a sum or product. -/
structure Parts (op : Operator) (e : Expr) (ps : List Expr) : Prop where
  whole : collected op ps = e
  nonempty : ps ≠ []
  flat : ∀ p ∈ ps, p.hasHead op.name = false
  normal : ∀ p ∈ ps, p.Normal
  apart : ps.Pairwise (SideBySide op)

theorem parts_singleton (he : e.Normal) (hflat : e.hasHead op.name = false) : Parts op e [e] where
  whole := rfl
  nonempty := by simp
  flat := by simpa using hflat
  normal := by simpa using he
  apart := List.pairwise_singleton _ _

theorem parts_app (hop : op.IsMonoidal) (he : (Expr.app op ps).Normal) :
    Parts op (.app op ps) ps := by
  obtain ⟨hnode, hps⟩ := normal_app.1 he
  have hsettled := hnode.settled hop
  have hnonempty : ps ≠ [] := by
    rintro rfl
    exact absurd hsettled.two (by simp)
  exact ⟨collected_of_two_le hsettled.two, hnonempty, hsettled.flat, hps, hsettled.apart⟩

theorem operands_app (hassoc : op.isAssociative = true) (h : ∀ p ∈ ps, p.hasHead op.name = false) :
    operands op [.app op ps] = ps := by
  simp [operands, hassoc, flatten, splice, flatten_of_flat h]

theorem Parts.operands_eq (h : Parts op e ps) (hassoc : op.isAssociative = true) :
    operands op [e] = ps := by
  match ps, h with
  | [], h => exact absurd rfl h.nonempty
  | [p], h =>
    obtain rfl := h.whole
    exact operands_of_flat fun _ => h.flat
  | p :: q :: rest, h =>
    obtain rfl := h.whole
    exact operands_app hassoc h.flat

theorem parts_operands (hop : op.IsMonoidal) (he : e.Normal) : Parts op e (operands op [e]) := by
  by_cases hflat : e.hasHead op.name = false
  · have hoperands : operands op [e] = [e] := operands_of_flat fun _ => by simpa using hflat
    rw [hoperands]
    exact parts_singleton he hflat
  · cases e with
    | num n => exact absurd rfl hflat
    | sym name role => exact absurd rfl hflat
    | app head ps =>
      have hname : head.name = op.name := by simpa [hasHead] using hflat
      obtain rfl : head = op := (normal_app.1 he).1.isProper.1 op hop.isArithmetic hname
      have hparts := parts_app hop he
      rw [operands_app hop.isAssociative hparts.flat]
      exact hparts

/-- The fold puts the operands of a normal expression together again. -/
theorem Parts.fold (h : Parts op e ps) (hop : op.IsMonoidal) (hps : PrefixesApart op ps) :
    ∃ p qs, ps = p :: qs ∧ (foldOperands (combine op) op p qs).value = .ok e := by
  obtain ⟨p, qs, rfl⟩ := List.exists_cons_of_ne_nil h.nonempty
  refine ⟨p, qs, rfl, ?_⟩
  rw [← h.whole]
  cases qs with
  | nil => rfl
  | cons q qs =>
    have hpq := List.rel_of_pairwise_cons h.apart List.mem_cons_self
    refine value_bind_eq_ok.2 ⟨none, hpq.1, ?_⟩
    simp only
    rw [join_of_flat fun _ => h.flat p (by simp)]
    exact foldOperands_of_apart hop.isAssociative [p, q] le_rfl h.apart hps

/-! ## Opposite numbers -/

variable {a b n c : Number} {q : ℚ}

/-- A number times minus one is the canonical number of the opposite value. -/
theorem exists_combineAlone_minusOne (reduce : Reducer) (hn : n.toRat? = some q) :
    ∃ c, (combineAlone reduce .multiply (.num .minusOne) (.num n)).value = .ok (some (.num c)) ∧
      c.toRat? = some (-q) ∧ c.IsCanonical := by
  cases n with
  | double x => cases hn
  | integer m =>
    cases hn
    exact ⟨.integer (-1 * m), rfl, by simp, trivial⟩
  | unit =>
    cases hn
    exact ⟨.integer (-1 * 1), rfl, by simp, trivial⟩
  | fraction p =>
    cases hn
    show ∃ c, (combineFactors reduce (.num .minusOne) (.num (.fraction q))).value = _ ∧ _
    by_cases hzero : q = 0
    · subst hzero
      exact ⟨.zero, rfl, by simp [Number.zero], trivial⟩
    by_cases hone : q = 1
    · subst hone
      exact ⟨.minusOne, rfl, by simp [Number.minusOne], trivial⟩
    refine ⟨.ofRat (-1 * q), ?_, by rw [Number.toRat?_ofRat, neg_one_mul],
      Number.isCanonical_ofRat _⟩
    have hvalue : (Number.fraction q).toRat? = some q := rfl
    simp only [combineFactors, isZero, isOne, (isZero_eq_false_iff hvalue).2 hzero,
      (isOne_eq_false_iff hvalue).2 hone]
    rfl

/-- Opposite numbers add up to zero. -/
theorem value_reduce_add_opposite (ha : a.toRat? = some q) (hb : b.toRat? = some (-q))
    (h : a.sameKind b = true ∨ b.IsCanonical) :
    (Simplify.reduce .add [.num a, .num b]).value = .ok (.int 0) := by
  have hasome : a.toRat?.isSome = true := by simp [ha]
  have hbsome : b.toRat?.isSome = true := by simp [hb]
  -- numbers of one kind are added at once; others are promoted, unless one of them is zero
  have halone : ∃ c, (combineAlone Simplify.reduce .add (.num a) (.num b)).value =
      .ok (some (.num c)) ∧ c.IsCanonical := by
    by_cases hkind : a.sameKind b = true
    · obtain ⟨c, hc⟩ := Number.isSome_compute? (.inl rfl) hkind
      refine ⟨c, ?_, Number.isCanonical_of_compute? (.inl rfl) hc hasome hbsome⟩
      simp only [combineAlone, hkind, if_true]
      rw [value_combineNumbers, hc]
      rfl
    · have hterms : combineAlone Simplify.reduce .add (.num a) (.num b) =
          combineTerms Simplify.reduce (.num a) (.num b) := by
        simp only [combineAlone, hkind]
        rfl
      rw [hterms]
      by_cases hzero : a.isZero = true
      · exact ⟨b, value_combineTerms_of_zero_left hzero, h.resolve_left hkind⟩
      · have hzero' : b.isZero = false := by
          rw [isZero_iff ha] at hzero
          exact (isZero_eq_false_iff hb).2 (neg_ne_zero.2 hzero)
        obtain ⟨c, hc, hcanonical⟩ := exists_combinePromoted (.inl rfl) hasome hbsome
        refine ⟨c, ?_, hcanonical⟩
        simp only [combineTerms, isZero, hzero, hzero']
        exact hc
  obtain ⟨c, hc, hcanonical⟩ := halone
  have hreduce : (Simplify.reduce .add [.num a, .num b]).value = .ok (.num c) :=
    value_reduce_pair rfl (fun _ => rfl) (fun _ => rfl) hc
  -- that the sum is zero follows from its value, since a canonical number is told by its value
  have hsum : (Expr.app .add [.num a, .num b]).denote (byName fun _ => 0) = some 0 := by
    refine denote_pair.2 ⟨q, -q, denote_num.trans ha, denote_num.trans hb, ?_⟩
    simp [Operator.value?]
  have hvalue := denote_reduce hsum hreduce
  rw [denote_num] at hvalue
  rw [hreduce, hcanonical.eq_ofRat hvalue zero_ne_one]
  rfl

/-! ## Products -/

theorem value_combine_zero (e : Expr) :
    (combine .multiply (.int 0) e).value = .ok (some (.int 0)) := by
  rw [value_combine_of_flat fun _ => rfl]
  have hfactors : (combineFactors Simplify.reduce (.int 0) e).value = .ok (some (.int 0)) :=
    value_combineFactors_of_zero (.inl rfl)
  cases e with
  | num n =>
    cases n with
    | integer m =>
      show Except.ok (some (Expr.int (0 * m))) = _
      rw [zero_mul]
    | unit => rfl
    | fraction p => exact hfactors
    | double x => exact hfactors
  | sym name role => exact hfactors
  | app head ps => exact hfactors

/-- Zero times anything is zero. -/
theorem value_reduce_multiply_zero (e : Expr) :
    (Simplify.reduce .multiply [.int 0, e]).value = .ok (.int 0) := by
  have hfold : ∀ ps, (foldOperands (combine .multiply) .multiply (.int 0) ps).value =
      .ok (.int 0) := by
    intro ps
    induction ps with
    | nil => rfl
    | cons p ps ih =>
      exact value_bind_eq_ok.2 ⟨_, value_combine_zero p, value_bind_eq_ok.2 ⟨(), rfl, ih⟩⟩
  have hoperands : operands .multiply [.int 0, e] = .int 0 :: operands .multiply [e] :=
    operands_cons _ _ _
  rw [value_reduce_cons rfl hoperands (hfold _)]
  rfl

theorem isZero_eq_false (h : e.isNumber = false) : e.isZero = false := by
  cases e with
  | num n => cases h
  | _ => rfl

theorem isOne_eq_false (h : e.isNumber = false) : e.isOne = false := by
  cases e with
  | num n => cases h
  | _ => rfl

/-- The parts of a product, the first of which may be its number. -/
structure FactorsOf (e : Expr) (ps : List Expr) : Prop extends Parts .multiply e ps where
  tail : ∀ p ∈ ps.tail, p.isNumber = false

theorem factorsOf_operands (he : e.Normal) : FactorsOf e (operands .multiply [e]) := by
  have hparts := parts_operands (.inr rfl) he
  refine ⟨hparts, ?_⟩
  generalize operands .multiply [e] = ps at hparts
  match ps, hparts with
  | [p], _ => simp
  | p :: q :: rest, hparts =>
    obtain rfl := hparts.whole
    exact (normal_app.1 he).1.2

/-- The factors of a product are put together again, if none of them is a power of those before
it. -/
theorem FactorsOf.fold (h : FactorsOf e ps) (hbases : BasesApart ps) :
    ∃ p qs, ps = p :: qs ∧
      (foldOperands (combine .multiply) .multiply p qs).value = .ok e ∧
      (finish .multiply e).value = .ok e := by
  match ps, h with
  | [], h => exact absurd rfl h.nonempty
  | [p], h =>
    obtain rfl := h.whole
    have hflat : p.hasHead Operator.multiply.name = false := h.flat p (by simp)
    refine ⟨p, [], rfl, rfl, ?_⟩
    show (finish .multiply p).value = .ok p
    rw [finish, isEmptyProduct_of_flat hflat, coefficientFirst_of_flat hflat]
    rfl
  | p :: q :: rest, h =>
    obtain rfl := h.whole
    have hnode : NormalNode .multiply (p :: q :: rest) :=
      ⟨settled_of_pairwise (.inr rfl) (by simp) h.flat h.apart, h.tail⟩
    have hprefixes := (prefixesApart_multiply hnode h.normal).2 hbases
    obtain ⟨p', qs, heq, hfold⟩ := h.toParts.fold (.inr rfl) hprefixes
    exact ⟨p', qs, heq, hfold, finish_normalNode (.inr rfl) hnode⟩

theorem coefficient?_of_flat (hnumber : e.isNumber = false)
    (hflat : e.hasHead Operator.multiply.name = false) : e.coefficient? = some (.unit, e) := by
  unfold coefficient?
  split
  · cases hnumber
  · next head c p ps =>
    have hname : (head.name == Operator.multiply.name) = false := hflat
    rw [hname]
    rfl
  · rfl

/-- The expression is a number times some factors; the number is the unit if there is none in it. -/
structure IsMultiple (e : Expr) (n : Number) (ps : List Expr) : Prop where
  coefficient : e.coefficient? = some (n, collected .multiply ps)
  factors : FactorsOf (collected .multiply ps) ps
  numberless : ∀ p ∈ ps, p.isNumber = false
  parts : operands .multiply [e] = .num n :: ps ∧ n.isZero = false ∨
    n = .unit ∧ operands .multiply [e] = ps

theorem FactorsOf.isMultiple (h : FactorsOf e ps) (hps : ∀ p ∈ ps, p.isNumber = false) :
    IsMultiple e .unit ps := by
  obtain rfl := h.whole
  refine ⟨?_, h, hps, .inr ⟨rfl, h.operands_eq rfl⟩⟩
  match ps, h with
  | [], h => exact absurd rfl h.nonempty
  | [p], h => exact coefficient?_of_flat (hps p (by simp)) (h.flat p (by simp))
  | .num n :: q :: rest, _ => cases hps (.num n) (by simp)
  | .sym name role :: q :: rest, _ => rfl
  | .app head qs :: q :: rest, _ => rfl

theorem FactorsOf.isMultiple_cons {n : Number} (h : FactorsOf e (.num n :: ps)) (hps : ps ≠ []) :
    IsMultiple e n ps := by
  obtain ⟨q, rest, rfl⟩ := List.exists_cons_of_ne_nil hps
  obtain rfl := h.whole
  obtain ⟨hn, hrest⟩ := List.pairwise_cons.1 h.apart
  refine ⟨by cases rest <;> rfl, ⟨⟨rfl, hps, ?_, ?_, hrest⟩, ?_⟩, h.tail,
    .inl ⟨h.operands_eq rfl, ?_⟩⟩
  · exact fun p hp => h.flat p (List.mem_cons_of_mem _ hp)
  · exact fun p hp => h.normal p (List.mem_cons_of_mem _ hp)
  · exact fun p hp => h.tail p (List.mem_of_mem_tail hp)
  · exact ((hn q (by simp)).neutral (.inr rfl)).1

/-- Every normal expression but a number is a number times some factors. -/
theorem exists_isMultiple (he : e.Normal) (hnumber : e.isNumber = false) :
    ∃ n ps, IsMultiple e n ps := by
  have h := factorsOf_operands he
  generalize operands .multiply [e] = ps at h
  match ps, h with
  | [], h => exact absurd rfl h.nonempty
  | [p], h =>
    obtain rfl := h.whole
    exact ⟨.unit, [p], h.isMultiple (List.forall_mem_singleton.2 hnumber)⟩
  | .num n :: q :: rest, h => exact ⟨n, _, h.isMultiple_cons (by simp)⟩
  | .sym name role :: q :: rest, h =>
    exact ⟨.unit, _, h.isMultiple (List.forall_mem_cons.2 ⟨rfl, h.tail⟩)⟩
  | .app head qs :: q :: rest, h =>
    exact ⟨.unit, _, h.isMultiple (List.forall_mem_cons.2 ⟨rfl, h.tail⟩)⟩

theorem IsMultiple.ne_zero {n : Number} (h : IsMultiple e n ps) (hn : n.toRat? = some q) :
    q ≠ 0 := by
  rcases h.parts with ⟨-, hzero⟩ | ⟨rfl, -⟩
  · exact (isZero_eq_false_iff hn).1 hzero
  · cases hn
    exact one_ne_zero

/-! ## Minus one times a term -/

/-- The opposite number and some factors, without the number if it is one. -/
def opposite (n : Number) (ps : List Expr) : Expr := collected .multiply (leading (-n.value) ++ ps)

/-- Nothing happens to the factors when the number in front of them becomes its opposite. -/
structure FactorsStay (n : Number) (ps : List Expr) : Prop where
  /-- No factor is a power of the new number. -/
  number : ∀ l ∈ leading (-n.value), ∀ p ∈ ps, l.same p.powerParts.1 = false
  /-- No factor is a power of the product of all that is before it. -/
  bases : BasesApart (leading (-n.value) ++ ps)
  /-- They are no sum that is left on its own. -/
  sum : (opposite n ps).hasHead Operator.add.name = false

instance (n : Number) (ps : List Expr) : Decidable (FactorsStay n ps) :=
  decidable_of_iff ((∀ l ∈ leading (-n.value), ∀ p ∈ ps, l.same p.powerParts.1 = false) ∧
      BasesApart (leading (-n.value) ++ ps) ∧ (opposite n ps).hasHead Operator.add.name = false)
    ⟨fun h => ⟨h.1, h.2.1, h.2.2⟩, fun h => ⟨h.number, h.bases, h.sum⟩⟩

theorem FactorsOf.cons (h : FactorsOf e ps) (hnumber : ∀ p ∈ ps, p.isNumber = false)
    (hc : c.toRat? = some q) (hzero : q ≠ 0) (hone : q ≠ 1)
    (hbase : ∀ p ∈ ps, (Expr.num c).same p.powerParts.1 = false) :
    FactorsOf (collected .multiply (.num c :: ps)) (.num c :: ps) := by
  refine ⟨⟨rfl, by simp, ?_, ?_, ?_⟩, hnumber⟩
  · exact List.forall_mem_cons.2 ⟨rfl, h.flat⟩
  · exact List.forall_mem_cons.2 ⟨normal_num, h.normal⟩
  · refine List.pairwise_cons.2 ⟨fun p hp => ?_, h.apart⟩
    have hp' := hnumber p hp
    have hapart : FactorsApart (.num c) p := by
      refine ⟨⟨(isZero_eq_false_iff hc).2 hzero, isZero_eq_false hp'⟩,
        ⟨(isOne_eq_false_iff hc).2 hone, isOne_eq_false hp'⟩, .inr hp', ?_, fun hs => ?_⟩
      · by_contra hs
        rw [Bool.not_eq_false] at hs
        rw [← isNumber_eq_of_same hs] at hp'
        cases hp'
      · rw [show (Expr.num c).powerParts.1 = .num c from rfl, hbase p hp] at hs
        cases hs
    exact sideBySide_of_apart (.inr rfl) (apart_multiply.2 hapart) rfl (h.flat p hp)

theorem leading_one : leading 1 = [] := if_pos rfl

theorem leading_of_ne_one (hq : q ≠ 1) : leading q = [.num (.ofRat q)] := if_neg hq

/-- A number that is not zero and the factors after it. -/
theorem FactorsOf.fold_number (h : FactorsOf (collected .multiply ps) ps)
    (hnumber : ∀ p ∈ ps, p.isNumber = false) (hc : c.toRat? = some q) (hcanonical : c.IsCanonical)
    (hq : q ≠ 0) (hbase : ∀ l ∈ leading q, ∀ p ∈ ps, l.same p.powerParts.1 = false)
    (hbases : BasesApart (leading q ++ ps)) :
    (foldOperands (combine .multiply) .multiply (.num c) ps).value =
        .ok (collected .multiply (leading q ++ ps)) ∧
      (finish .multiply (collected .multiply (leading q ++ ps))).value =
        .ok (collected .multiply (leading q ++ ps)) := by
  by_cases hone : q = 1
  · subst hone
    rw [leading_one, List.nil_append] at hbases ⊢
    obtain ⟨p, qs, rfl, hfold, hfinish⟩ := h.fold hbases
    have hp : p.isNumber = false := hnumber p (by simp)
    have hcombine : (combine .multiply (.num c) p).value = .ok (some p) := by
      rw [value_combine_of_flat fun _ => rfl, combineAlone_of_not_numbers (.inr hp)]
      exact value_combineFactors_of_one_left (isZero_eq_false hp) ((isOne_iff hc).2 rfl)
    exact ⟨value_bind_eq_ok.2 ⟨_, hcombine, value_bind_eq_ok.2 ⟨(), rfl, hfold⟩⟩, hfinish⟩
  · rw [leading_of_ne_one hone] at hbase hbases ⊢
    obtain rfl := hcanonical.eq_ofRat hc hone
    have hall := h.cons hnumber hc hq hone (hbase _ (by simp))
    obtain ⟨p, qs, heq, hfold, hfinish⟩ := hall.fold hbases
    cases heq
    exact ⟨hfold, hfinish⟩

/-- Minus one times a multiple of some factors that stay. -/
theorem IsMultiple.value_reduce_minusOne {n : Number} (h : IsMultiple e n ps)
    (hn : n.toRat? = some q) (hstay : FactorsStay n ps) :
    (Simplify.reduce .multiply [.num .minusOne, e]).value = .ok (opposite n ps) := by
  have hq : -q ≠ 0 := neg_ne_zero.2 (h.ne_zero hn)
  have hcons : operands .multiply [.num .minusOne, e] =
      .num .minusOne :: operands .multiply [e] := operands_cons _ _ _
  obtain ⟨hbase, hbases, -⟩ := hstay
  unfold opposite
  rw [Number.value_eq hn] at hbase hbases ⊢
  rcases h.parts with ⟨hparts, -⟩ | ⟨rfl, hparts⟩
  · obtain ⟨c, hc, hcvalue, hcanonical⟩ := exists_combineAlone_minusOne Simplify.reduce hn
    obtain ⟨hfold, hfinish⟩ :=
      h.factors.fold_number h.numberless hcvalue hcanonical hq hbase hbases
    have hcombine : (combine .multiply (.num .minusOne) (.num n)).value = .ok (some (.num c)) :=
      (value_combine_of_flat fun _ => rfl).trans hc
    rw [hparts] at hcons
    rw [value_reduce_cons rfl hcons
      (value_bind_eq_ok.2 ⟨_, hcombine, value_bind_eq_ok.2 ⟨(), rfl, hfold⟩⟩)]
    exact hfinish
  · cases hn
    have hminus : Number.minusOne.toRat? = some (-1) := by simp [Number.minusOne]
    obtain ⟨hfold, hfinish⟩ :=
      h.factors.fold_number h.numberless hminus trivial hq hbase hbases
    rw [hparts] at hcons
    rw [value_reduce_cons rfl hcons hfold]
    exact hfinish

/-- With the opposite number, factors that stay are a multiple again. -/
theorem IsMultiple.opposite {n : Number} (h : IsMultiple e n ps) (hn : n.toRat? = some q)
    (hstay : FactorsStay n ps) :
    ∃ m, IsMultiple (opposite n ps) m ps ∧ m.toRat? = some (-q) ∧ m.IsCanonical := by
  have hq : -q ≠ 0 := neg_ne_zero.2 (h.ne_zero hn)
  have hbase := hstay.number
  unfold Simplify.opposite
  rw [Number.value_eq hn] at hbase ⊢
  by_cases hone : -q = 1
  · rw [hone, leading_one, List.nil_append]
    exact ⟨.unit, h.factors.isMultiple h.numberless, rfl, trivial⟩
  · rw [leading_of_ne_one hone] at hbase ⊢
    have hm := Number.toRat?_ofRat (-q)
    have hfactors := h.factors.cons h.numberless hm hq hone (hbase _ (by simp))
    exact ⟨_, hfactors.isMultiple_cons h.factors.nonempty, hm, Number.isCanonical_ofRat _⟩

/-! ## Sums -/

theorem value_combine_of_some (h : (combineAlone Simplify.reduce op l r).value = .ok (some e)) :
    (combine op l r).value = .ok (some e) := by
  rw [(matches_combine op l r).1]
  exact value_bind_eq_ok.2 ⟨some e, h, rfl⟩

/-- Multiples of one term by opposite numbers are not the same. -/
theorem not_same_of_opposite (hl : l.coefficient? = some (a, term))
    (hr : r.coefficient? = some (b, term)) (ha : a.toRat? = some q) (hb : b.toRat? = some (-q))
    (hq : q ≠ 0) : l.same r = false := by
  have hopposite : a.same b = false := by
    by_contra hsame
    have heq := Number.toRat?_eq_of_same ((Bool.not_eq_false _).mp hsame) ha hb
    exact hq (self_eq_neg.1 heq)
  by_contra hsame
  rw [Bool.not_eq_false] at hsame
  have hweight := weight_eq_of_same l r hsame
  rcases weight_of_coefficient? hl with hwl | ⟨rfl, -⟩
  · rcases weight_of_coefficient? hr with hwr | ⟨rfl, -⟩
    · rcases coefficient?_eq_some hl with ⟨-, -, rfl⟩ | ⟨head, ps, rfl, -, -⟩
      · omega
      rcases coefficient?_eq_some hr with ⟨-, -, rfl⟩ | ⟨head', qs, rfl, -, -⟩
      · omega
      simp only [same, sameList, hopposite, Bool.false_and, Bool.and_false] at hsame
      cases hsame
    · omega
  · rcases weight_of_coefficient? hr with hwr | ⟨rfl, -⟩
    · omega
    · rw [hl] at hr
      cases hr
      rw [Number.same_refl] at hopposite
      cases hopposite

theorem prefixesApart_operands (he : e.Normal) (hsteady : e.Steady) :
    PrefixesApart .add (operands .add [e]) := by
  have h := parts_operands (.inl rfl) he
  generalize operands .add [e] = ps at h
  match ps, h with
  | [], _ => exact prefixesApart_of_length_le (by simp)
  | [p], _ => exact prefixesApart_of_length_le (by simp)
  | p :: q :: rest, h =>
    obtain rfl := h.whole
    exact (steady_app.1 hsteady).1 rfl

/-- A term and the same term with the opposite number add up to zero. -/
theorem value_reduce_add_terms (hl : l.Normal) (hsteady : l.Steady) (hr : r.Normal)
    (hsum : r.hasHead Operator.add.name = false) (ha : l.coefficient? = some (a, term))
    (hb : r.coefficient? = some (b, term)) (hx : a.toRat? = some q) (hy : b.toRat? = some (-q))
    (hq : q ≠ 0) (hkind : a.sameKind b = true ∨ b.IsCanonical) :
    (Simplify.reduce .add [l, r]).value = .ok (.int 0) := by
  have hnumber : ∀ {e : Expr} {c : Number}, e.coefficient? = some (c, term) →
      e.isNumber = false := by
    intro e c h
    cases e with
    | num n => cases h
    | _ => rfl
  have hcombine : (combine .add l r).value = .ok (some (.int 0)) := by
    refine value_combine_of_some ?_
    rw [combineAlone_of_not_numbers (.inl (hnumber ha))]
    exact value_combineTerms_of_like (hnumber ha) (hnumber hb)
      (not_same_of_opposite ha hb hx hy hq) ha hb (same_refl term)
      (value_reduce_add_opposite hx hy hkind) (value_reduce_multiply_zero term)
  obtain ⟨p, qs, hparts, hfold⟩ :=
    (parts_operands (.inl rfl) hl).fold (.inl rfl) (prefixesApart_operands hl hsteady)
  have hoperands : operands .add [l, r] = p :: (qs ++ [r]) := by
    rw [operands_cons, hparts, (parts_singleton hr hsum).operands_eq rfl]
    rfl
  have hall : (foldOperands (combine .add) .add p (qs ++ [r])).value = .ok (.int 0) := by
    rw [value_foldOperands_append hfold]
    exact value_bind_eq_ok.2 ⟨_, hcombine, value_bind_eq_ok.2 ⟨(), rfl, rfl⟩⟩
  rw [value_reduce_cons rfl hoperands hall]
  rfl

end Simplify

namespace Expr

/-- Nothing but the number in front of the expression changes when it is multiplied by minus one. -/
def KeepsFactors (e : Expr) : Prop :=
  ∀ part ∈ e.coefficient?, FactorsStay part.1 (operands .multiply [part.2])

instance (e : Expr) : Decidable e.KeepsFactors :=
  inferInstanceAs (Decidable (∀ part ∈ e.coefficient?,
    FactorsStay part.1 (operands .multiply [part.2])))

end Expr

namespace Simplify

/-- An expression that keeps its factors and its product with minus one add up to zero. -/
theorem exists_reduce_opposite {e : Expr} (he : e.Normal) (hsteady : e.Steady) (hexact : e.IsExact)
    (hkeeps : e.KeepsFactors) :
    ∃ r, (reduce .multiply [.num .minusOne, e]).value = .ok r ∧
      (reduce .add [e, r]).value = .ok (.int 0) := by
  by_cases hnumber : e.isNumber = false
  · obtain ⟨n, ps, h⟩ := exists_isMultiple he hnumber
    have hnexact : n.toRat?.isSome = true := (hexact.coefficient? rfl trivial h.coefficient).1
    obtain ⟨q, hn⟩ := Option.isSome_iff_exists.1 hnexact
    have hstay : FactorsStay n ps := by
      have hpart := hkeeps _ h.coefficient
      rwa [h.factors.operands_eq rfl] at hpart
    have hproduct := h.value_reduce_minusOne hn hstay
    obtain ⟨m, hm, hvalue, hcanonical⟩ := h.opposite hn hstay
    refine ⟨_, hproduct, ?_⟩
    have hnormal := normal_reduce Operator.isArithmetic_multiply.isProper (by simp [he]) hproduct
    exact value_reduce_add_terms he hsteady hnormal hstay.sum h.coefficient hm.coefficient hn
      hvalue (h.ne_zero hn) (.inr hcanonical)
  · cases e with
    | num n =>
      obtain ⟨q, hn⟩ := Option.isSome_iff_exists.1 (madeOf_num.1 hexact)
      obtain ⟨c, hc, hvalue, hcanonical⟩ := exists_combineAlone_minusOne reduce hn
      have hproduct : (reduce .multiply [.num .minusOne, .num n]).value = .ok (.num c) :=
        value_reduce_pair rfl (fun _ => rfl) (fun _ => rfl) hc
      exact ⟨_, hproduct, value_reduce_add_opposite hn hvalue (.inr hcanonical)⟩
    | _ => exact absurd rfl hnumber

end Simplify

end Reckoner
