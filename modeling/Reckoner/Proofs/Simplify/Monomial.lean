import Reckoner.Proofs.Simplify.Collect

/-!
# Monomials

The factors of a monomial are canonical numbers, symbols, and whole powers of symbols. Such a
product comes to a canonical form: the product of the numbers first, unless that is one, and one
factor for each symbol whose exponents do not add up to zero. A zero among the numbers takes
everything. The totals are read off the value of the product, which simplification keeps: at a point
where all symbols but one are one, and that one is two, the product is its coefficient times a power
of two.
-/

namespace Reckoner

open Simplify Reckoner.Expr Logged

/-! ## Factors of a monomial -/

/-- The symbol itself, or a power of it with a whole exponent other than zero and one. -/
inductive IsPowerOf (x : String) : Expr → Prop where
  | symbol : IsPowerOf x (.free x)
  | power {n : ℤ} (zero : n ≠ 0) (one : n ≠ 1) : IsPowerOf x (.app .power [.free x, .int n])

/-- A canonical number or a power of a symbol. -/
inductive IsMonomialFactor : Expr → Prop where
  | number {c : Number} (canonical : c.IsCanonical) : IsMonomialFactor (.num c)
  | power {x : String} {t : Expr} (h : IsPowerOf x t) : IsMonomialFactor t

namespace Expr

/-- The exponent of a symbol in a factor of a monomial. -/
def exponentIn (x : String) : Expr → ℤ
  | .sym y _ => if y = x then 1 else 0
  | .app _ [.sym y _, .num (.integer n)] => if y = x then n else 0
  | _ => 0

/-- The number that a factor is, or one. -/
def numberIn : Expr → ℚ
  | .num c => c.value
  | _ => 1

/-- The power of a symbol, which is not written as a power when the exponent is one. -/
def powerOf (x : String) (n : ℤ) : Expr :=
  if n = 1 then .free x else .app .power [.free x, .int n]

/-- The number in front of a product, which is left out when it is one. -/
def leading (c : ℚ) : List Expr := if c = 1 then [] else [.num (.ofRat c)]

end Expr

variable {x y : String} {c : Number} {l r t : Expr}

/-- Base and exponent of a power of a symbol. -/
theorem IsPowerOf.powerParts (h : IsPowerOf x t) :
    ∃ m n, t.powerParts = (.free x, .num m) ∧ m.plain = .integer n := by
  cases h with
  | symbol => exact ⟨.unit, 1, rfl, rfl⟩
  | @power n _ _ => exact ⟨.integer n, n, rfl, rfl⟩

theorem IsPowerOf.isNumber (h : IsPowerOf x t) : t.isNumber = false := by
  cases h <;> rfl

theorem IsPowerOf.isZero (h : IsPowerOf x t) : t.isZero = false := by
  cases h <;> rfl

theorem IsPowerOf.isOne (h : IsPowerOf x t) : t.isOne = false := by
  cases h <;> rfl

theorem IsPowerOf.not_same (hl : IsPowerOf x l) (hr : IsPowerOf y r) (hxy : x ≠ y) :
    l.same r = false := by
  cases hl <;> cases hr <;> simp [free, same, sameList, hxy]

theorem IsMonomialFactor.hasHead (h : IsMonomialFactor t) :
    t.hasHead Operator.multiply.name = false := by
  cases h with
  | number => rfl
  | power h => cases h <;> rfl

namespace Simplify

/-! ## Powers of a symbol -/

/-- A whole power of a symbol. -/
theorem exists_reduce_powerOf (x : String) (n : ℤ) :
    ∃ e, (reduce .power [.free x, .int n]).value = .ok e ∧ IsMonomialFactor e := by
  have hpair : ∀ {o}, (combinePower reduce (.free x) (.int n)).value = .ok o →
      (reduce .power [.free x, .int n]).value = .ok (o.getD (.app .power [.free x, .int n])) :=
    fun ho => value_reduce_pair rfl (fun h => by cases h) (fun h => by cases h) ho
  by_cases h0 : n = 0
  · subst h0
    exact ⟨_, hpair (o := some (.num .unit)) rfl, .number trivial⟩
  by_cases h1 : n = 1
  · subst h1
    exact ⟨_, hpair (o := some (.free x)) rfl, .power .symbol⟩
  · refine ⟨_, hpair (o := none) ?_, .power (.power h0 h1)⟩
    simp [combinePower, int, free, isZero, isOne, Number.isZero, Number.isOne, h0, h1, asPower?]

/-- Two whole numbers are added. -/
theorem value_reduce_add_integers {a b : Number} {m n : ℤ} (ha : a.plain = .integer m)
    (hb : b.plain = .integer n) :
    (reduce .add [.num a, .num b]).value = .ok (.int (m + n)) := by
  refine value_reduce_pair (o := some (.int (m + n))) rfl (fun _ => rfl) (fun _ => rfl) ?_
  simp only [combineAlone, Number.sameKind, ha, hb, if_true]
  rw [value_combineNumbers]
  simp [Operator.compute?, Number.addAlike?, ha, hb, int]

theorem value_reduce_multiply_integers (m n : ℤ) :
    (reduce .multiply [.int m, .int n]).value = .ok (.int (m * n)) :=
  value_reduce_pair (o := some (.int (m * n))) rfl (fun _ => rfl) (fun _ => rfl) rfl

/-- The square of a power of a symbol. -/
theorem exists_reduce_square (h : IsPowerOf x t) :
    ∃ e, (reduce .power [t, .num .two]).value = .ok e ∧ IsMonomialFactor e := by
  cases h with
  | symbol => exact exists_reduce_powerOf x 2
  | @power n _ _ =>
    obtain ⟨e, he, hfactor⟩ := exists_reduce_powerOf x (n * 2)
    refine ⟨e, value_reduce_pair (o := some e) rfl (fun h => by cases h) (fun h => by cases h) ?_,
      hfactor⟩
    have hproduct : (reduce .multiply [.int n, .num .two]).value = .ok (.int (n * 2)) :=
      value_reduce_multiply_integers n 2
    exact value_bind_eq_ok.2 ⟨_, hproduct, value_bind_eq_ok.2 ⟨e, he, rfl⟩⟩

/-! ## Products of two factors -/

theorem factorsApart_number_power (h0 : c.isZero = false) (h1 : c.isOne = false)
    (hr : IsPowerOf x r) : FactorsApart (.num c) r where
  zero := ⟨h0, hr.isZero⟩
  one := ⟨h1, hr.isOne⟩
  number := .inr hr.isNumber
  same := by cases hr <;> rfl
  power h := by
    obtain ⟨m, n, hparts, -⟩ := hr.powerParts
    rw [hparts] at h
    cases h

/-- Powers of different symbols stay side by side. -/
theorem factorsApart_powers (hl : IsPowerOf x l) (hr : IsPowerOf y r) (hxy : x ≠ y) :
    FactorsApart l r where
  zero := ⟨hl.isZero, hr.isZero⟩
  one := ⟨hl.isOne, hr.isOne⟩
  number := .inl hl.isNumber
  same := hl.not_same hr hxy
  power h := by
    obtain ⟨m, -, hl', -⟩ := hl.powerParts
    obtain ⟨n, -, hr', -⟩ := hr.powerParts
    rw [hl', hr'] at h
    exact absurd (by simpa [free, same] using h) hxy

/-- Powers of one symbol become a factor of a monomial. -/
theorem exists_combineFactors_powers (hl : IsPowerOf x l) (hr : IsPowerOf x r) :
    ∃ e, (combineFactors reduce l r).value = .ok (some e) ∧ IsMonomialFactor e := by
  cases hs : l.same r with
  | true =>
    obtain ⟨e, he, hfactor⟩ := exists_reduce_square hl
    exact ⟨e, value_combineFactors_of_same hl.isNumber hr.isNumber hs he, hfactor⟩
  | false =>
    obtain ⟨a, m, hl', ha⟩ := hl.powerParts
    obtain ⟨b, n, hr', hb⟩ := hr.powerParts
    obtain ⟨e, he, hfactor⟩ := exists_reduce_powerOf x (m + n)
    have hunit : l.powerParts.2.isUnit = false ∨ r.powerParts.2.isUnit = false := by
      cases hl with
      | symbol =>
        cases hr with
        | symbol => rw [same_refl] at hs; cases hs
        | power => exact .inr rfl
      | power => exact .inl rfl
    refine ⟨e, value_combineFactors_of_powers hl.isNumber hr.isNumber hs ?_ hunit
      (x := .int (m + n)) ?_ ?_, hfactor⟩
    · rw [hl', hr']
      exact same_refl _
    · rw [hl', hr']
      exact value_reduce_add_integers ha hb
    · rw [hl']
      exact he

/-- A number and a power of a symbol, in either order. -/
theorem exists_combineFactors_number_power (c : Number) (hr : IsPowerOf x r) :
    (∃ o, (combineFactors reduce (.num c) r).value = .ok o ∧
      ∀ e, o = some e → IsMonomialFactor e) ∧
    ∃ o, (combineFactors reduce r (.num c)).value = .ok o ∧
      ∀ e, o = some e → IsMonomialFactor e := by
  cases h0 : c.isZero with
  | true =>
    have hzero : ∀ e, some (Expr.num .zero) = some e → IsMonomialFactor e := by
      rintro _ ⟨⟩
      exact .number trivial
    exact ⟨⟨_, value_combineFactors_of_zero (.inl h0), hzero⟩,
      ⟨_, value_combineFactors_of_zero (.inr h0), hzero⟩⟩
  | false =>
    cases h1 : c.isOne with
    | true =>
      have hpower : ∀ e, some r = some e → IsMonomialFactor e := by
        rintro _ ⟨⟩
        exact .power hr
      exact ⟨⟨_, value_combineFactors_of_one_left hr.isZero h1, hpower⟩,
        ⟨_, value_combineFactors_of_one_right hr.isZero hr.isOne h1, hpower⟩⟩
    | false =>
      have hapart := factorsApart_number_power h0 h1 hr
      exact ⟨⟨none, combineFactors_eq_none.2 hapart, by simp⟩,
        ⟨none, combineFactors_eq_none.2 hapart.symm, by simp⟩⟩

theorem factorsApart_product (ts : List Expr) (hr : IsMonomialFactor r) (h0 : r.isZero = false)
    (h1 : r.isOne = false) : FactorsApart (.app .multiply ts) r where
  zero := ⟨rfl, h0⟩
  one := ⟨rfl, h1⟩
  number := .inl rfl
  same := by
    cases hr with
    | number => rfl
    | power h => cases h <;> rfl
  power h := by
    rw [powerParts_multiply] at h
    cases hr with
    | number => cases h
    | power hpower =>
      obtain ⟨m, n, hparts, -⟩ := hpower.powerParts
      rw [hparts] at h
      cases h

theorem closedOperands_multiply : ClosedOperands .multiply IsMonomialFactor where
  monoidal := .inr rfl
  flat ht := ht.hasHead
  empty := .number trivial
  pair hl hr := by
    cases hl with
    | @number a ha =>
      cases hr with
      | @number b hb =>
        obtain ⟨c, hc, hcanonical⟩ := exists_combineAlone_num Simplify.reduce (.inr rfl) ha hb
        refine ⟨_, hc, ?_⟩
        rintro _ ⟨⟩
        exact .number hcanonical
      | @power x r hr =>
        rw [combineAlone_of_not_numbers (.inr hr.isNumber)]
        exact (exists_combineFactors_number_power a hr).1
    | @power x l hl =>
      rw [combineAlone_of_not_numbers (.inl hl.isNumber)]
      cases hr with
      | @number b hb => exact (exists_combineFactors_number_power b hl).2
      | @power y r hr =>
        by_cases hxy : x = y
        · subst hxy
          obtain ⟨e, he, hfactor⟩ := exists_combineFactors_powers hl hr
          refine ⟨_, he, ?_⟩
          rintro _ ⟨⟩
          exact hfactor
        · exact ⟨none, combineFactors_eq_none.2 (factorsApart_powers hl hr hxy), by simp⟩
  -- a product as a whole takes up a zero or a one and nothing else
  whole := by
    intro ts r hr
    rw [combineAlone_of_not_numbers (.inl rfl)]
    cases h0 : r.isZero with
    | true =>
      refine ⟨_, value_combineFactors_of_zero (.inr h0), ?_⟩
      rintro _ ⟨⟩
      exact .inl (.number trivial)
    | false =>
      cases h1 : r.isOne with
      | true =>
        refine ⟨_, value_combineFactors_of_one_right rfl rfl h1, ?_⟩
        rintro _ ⟨⟩
        exact .inr rfl
      | false =>
        exact ⟨none, combineFactors_eq_none.2 (factorsApart_product ts hr h0 h1), by simp⟩

theorem normal_of_isMonomialFactor (h : IsMonomialFactor t) : t.Normal := by
  cases h with
  | number => exact normal_num
  | @power x t h =>
    cases h with
    | symbol => exact normal_sym
    | @power n h0 h1 =>
      have hnone : (combineAlone reduce .power (.free x) (.int n)).value = .ok none := by
        simp [combineAlone, combineObjects, combinePower, int, free, isZero, isOne, Number.isZero,
          Number.isOne, h0, h1, asPower?]
      refine normal_app.2 ⟨.inr ⟨_, _, rfl, ?_⟩, by simp [free, int]⟩
      exact (value_combine_of_flat fun _ => rfl).trans hnone

end Simplify

/-! ## Totals -/

/-- The exponents of a symbol in the factors, all together. -/
def exponentSum (x : String) (ts : List Expr) : ℤ := (ts.map (exponentIn x)).sum

/-- The numbers among the factors, all together. -/
def numberProduct (ts : List Expr) : ℚ := (ts.map numberIn).prod

/-- What a factor is where one symbol is `v` and all others are one. -/
theorem IsMonomialFactor.denote_eq (h : IsMonomialFactor t) (x : String) {v : ℚ} (hv : v ≠ 0) :
    t.denote (byName fun y => if y = x then v else 1) =
      some (numberIn t * v ^ exponentIn x t) := by
  cases h with
  | number hc => simp [hc.toRat?_eq, numberIn, exponentIn]
  | @power y t h =>
    cases h with
    | symbol =>
      by_cases hyx : y = x <;> simp [free, byName, numberIn, exponentIn, hyx]
    | @power n _ _ =>
      have hbase : (if y = x then v else 1) ≠ 0 := by split <;> simp [hv]
      refine denote_pair.2 ⟨if y = x then v else 1, n, ?_, rfl, ?_⟩
      · rw [free, denote_sym]
        rfl
      · have hpower : rationalPower? (if y = x then v else 1) n =
            some ((if y = x then v else 1) ^ n) :=
          rationalPower?_eq_some.2 ⟨n, rfl, .inl hbase, rfl⟩
        by_cases hyx : y = x <;>
          simpa [Operator.value?, numberIn, exponentIn, free, int, hyx] using hpower

theorem denote_monomial {ts : List Expr} (h : ∀ t ∈ ts, IsMonomialFactor t) (x : String) {v : ℚ}
    (hv : v ≠ 0) :
    (Expr.app .multiply ts).denote (byName fun y => if y = x then v else 1) =
      some (numberProduct ts * v ^ exponentSum x ts) := by
  induction ts with
  | nil => simp [denote, denoteList, Operator.value?, numberProduct, exponentSum]
  | cons t ts ih =>
    rw [List.forall_mem_cons] at h
    obtain ⟨vs, hvs, hprod⟩ := denote_app.1 (ih h.2)
    refine denote_app.2 ⟨_, .cons (h.1.denote_eq x hv) hvs, ?_⟩
    simp only [Operator.value?, Option.some.injEq] at hprod ⊢
    simp only [List.prod_cons, hprod, numberProduct, exponentSum, List.map_cons, List.sum_cons,
      zpow_add₀ hv]
    ring

/-- Simplification keeps the product of the numbers, and the exponents unless that is zero. -/
theorem monomial_totals_eq {ps ts : List Expr} (hps : ∀ p ∈ ps, IsMonomialFactor p)
    (h : Collected .multiply IsMonomialFactor ps ts) :
    numberProduct ts = numberProduct ps ∧
      (numberProduct ps ≠ 0 → ∀ x, exponentSum x ts = exponentSum x ps) := by
  have hvalue : ∀ x {v : ℚ}, v ≠ 0 → numberProduct ts * v ^ exponentSum x ts =
      numberProduct ps * v ^ exponentSum x ps := by
    intro x v hv
    have hts := h.value _ _ (denote_monomial hps x hv)
    rw [denote_monomial h.operand x hv] at hts
    exact Option.some.inj hts
  have hnumber : numberProduct ts = numberProduct ps := by simpa using hvalue "" one_ne_zero
  refine ⟨hnumber, fun hne x => ?_⟩
  have hpower := hvalue x two_ne_zero
  rw [hnumber] at hpower
  exact zpow_right_injective₀ two_pos (by norm_num) (mul_left_cancel₀ hne hpower)

theorem numberProduct_eq_zero {ps : List Expr} (hps : ∀ p ∈ ps, IsMonomialFactor p) :
    numberProduct ps = 0 ↔ ∃ p ∈ ps, p.isZero = true := by
  unfold numberProduct
  rw [List.prod_eq_zero_iff, List.mem_map]
  refine exists_congr fun p => and_congr_right fun hp => ?_
  cases hps p hp with
  | @number c hc =>
    constructor
    · intro hzero
      exact Number.isZero_of_toRat? (hc.toRat?_eq.trans (congrArg some hzero))
    · intro hzero
      exact Option.some.inj (hc.toRat?_eq.symm.trans (Number.toRat?_of_isZero hzero))
  | power h => cases h <;> simp [free, numberIn, isZero]

/-! ## One factor for each symbol -/

/-- The symbol of a factor; a number has none. -/
def baseIn? : Expr → Option String
  | .sym x _ => some x
  | .app _ [.sym x _, _] => some x
  | _ => none

theorem IsPowerOf.baseIn?_eq (h : IsPowerOf x t) : baseIn? t = some x := by
  cases h <;> rfl

theorem IsPowerOf.exponentIn_ne_zero (h : IsPowerOf x t) : exponentIn x t ≠ 0 := by
  cases h with
  | symbol => simp [free, exponentIn]
  | power h0 _ => simpa [free, int, exponentIn] using h0

/-- A power of a symbol is written by its exponent. -/
theorem IsPowerOf.plain_eq (h : IsPowerOf x t) : t.plain = powerOf x (exponentIn x t) := by
  cases h with
  | symbol => simp [free, powerOf, exponentIn]
  | power _ h1 => simp [free, int, powerOf, exponentIn, h1, Number.plain]

theorem baseIn?_of_exponentIn_ne_zero (h : exponentIn x t ≠ 0) : baseIn? t = some x := by
  unfold exponentIn at h
  split at h
  · next y role =>
    have hy : y = x := by
      by_contra hy
      simp [hy] at h
    simp [baseIn?, hy]
  · next op y role n =>
    have hy : y = x := by
      by_contra hy
      simp [hy] at h
    simp [baseIn?, hy]
  · exact absurd rfl h

/-- Powers that a product leaves alone are powers of different symbols. -/
theorem baseIn?_ne_of_sideBySide (hl : IsPowerOf x l) (hr : IsPowerOf y r)
    (h : SideBySide .multiply l r) : baseIn? l ≠ baseIn? r := by
  have hapart := apart_multiply.1 (apart_of_combine h.1)
  rw [hl.baseIn?_eq, hr.baseIn?_eq]
  rintro ⟨⟩
  obtain ⟨m, i, hl', -⟩ := hl.powerParts
  obtain ⟨n, j, hr', -⟩ := hr.powerParts
  have hunits := hapart.power (by rw [hl', hr']; exact same_refl _)
  have hsame : l.same r = true := by
    cases hl with
    | symbol =>
      cases hr with
      | symbol => exact same_refl _
      | power => cases hunits.2
    | power => cases hunits.1
  rw [hapart.same] at hsame
  cases hsame

/-- Where the factors are powers of different symbols, the total of a symbol is the exponent of its
factor. -/
theorem exists_factor_iff {fs : List Expr} (hfs : ∀ f ∈ fs, ∃ x, IsPowerOf x f)
    (hkeys : fs.Pairwise fun a b => baseIn? a ≠ baseIn? b) (u : Expr) :
    (∃ f ∈ fs, f.plain = u) ↔ ∃ x, exponentSum x fs ≠ 0 ∧ u = powerOf x (exponentSum x fs) := by
  have hexponent : ∀ {x f}, f ∈ fs → IsPowerOf x f → exponentSum x fs = exponentIn x f := by
    intro x f hf hx
    refine sum_map_eq_of_key hkeys hf fun s _ hs => ?_
    by_contra hne
    exact hs ((baseIn?_of_exponentIn_ne_zero hne).trans hx.baseIn?_eq.symm)
  constructor
  · rintro ⟨f, hf, rfl⟩
    obtain ⟨x, hx⟩ := hfs f hf
    refine ⟨x, ?_⟩
    rw [hexponent hf hx]
    exact ⟨hx.exponentIn_ne_zero, hx.plain_eq⟩
  · rintro ⟨x, hne, rfl⟩
    obtain ⟨f, hf, hx⟩ := exists_mem_of_sum_map_ne_zero hne
    obtain ⟨y, hy⟩ := hfs f hf
    obtain rfl : y = x :=
      Option.some.inj (hy.baseIn?_eq.symm.trans (baseIn?_of_exponentIn_ne_zero hx))
    rw [hexponent hf hy]
    exact ⟨f, hf, hy.plain_eq⟩

/-! ## The canonical form -/

theorem numberProduct_of_powers {fs : List Expr} (h : ∀ f ∈ fs, ∃ x, IsPowerOf x f) :
    numberProduct fs = 1 := by
  refine List.prod_eq_one fun v hv => ?_
  obtain ⟨f, hf, rfl⟩ := List.mem_map.1 hv
  obtain ⟨x, hx⟩ := h f hf
  cases hx <;> rfl

/-- What comes out of a product is its number, unless that is one, and powers of symbols. -/
theorem Simplify.Collected.exists_leading {ps ts : List Expr}
    (h : Collected .multiply IsMonomialFactor ps ts) :
    ∃ fs, ts.map plain = leading (numberProduct ts) ++ fs.map plain ∧
      (∀ f ∈ fs, ∃ x, IsPowerOf x f) ∧ fs.Pairwise (SideBySide .multiply) ∧
      ∀ x, exponentSum x ts = exponentSum x fs := by
  cases ts with
  | nil => exact ⟨[], rfl, by simp, .nil, fun _ => rfl⟩
  | cons t rest =>
    -- only the first factor may be a number
    have hrest : ∀ f ∈ rest, ∃ x, IsPowerOf x f := by
      intro f hf
      have hnumber := h.number rfl f hf
      cases h.operand f (by simp [hf]) with
      | number => cases hnumber
      | power hx => exact ⟨_, hx⟩
    cases h.operand t (by simp) with
    | @number c hc =>
      have hproduct : numberProduct (.num c :: rest) = c.value := by
        have hones := numberProduct_of_powers hrest
        unfold numberProduct at hones ⊢
        rw [List.map_cons, List.prod_cons, hones, mul_one, numberIn]
      -- a one would have been dropped
      have hne : c.value ≠ 1 := by
        intro hone
        refine h.neutral (.num c) (by simp) ((isNeutral_iff (.inr rfl)).2 ⟨c, rfl, ?_⟩)
        rw [hc.plain_eq, hone]
        rfl
      refine ⟨rest, ?_, hrest, (List.pairwise_cons.1 h.apart).2, fun x => ?_⟩
      · rw [hproduct, leading, if_neg hne, List.map_cons, plain_num, hc.plain_eq]
        rfl
      · have hnone : exponentIn x (.num c) = 0 := rfl
        rw [exponentSum, List.map_cons, List.sum_cons, hnone, zero_add]
        rfl
    | @power x t hx =>
      have hall : ∀ f ∈ t :: rest, ∃ x, IsPowerOf x f := List.forall_mem_cons.2 ⟨⟨x, hx⟩, hrest⟩
      refine ⟨t :: rest, ?_, hall, h.apart, fun _ => rfl⟩
      rw [numberProduct_of_powers hall, leading, if_pos rfl, List.nil_append]

/-- A zero is all that comes out. -/
theorem Simplify.Collected.eq_zero {ps ts : List Expr}
    (h : Collected .multiply IsMonomialFactor ps ts) (hzero : ∃ t ∈ ts, t.isZero = true) :
    collected .multiply (ts.map plain) = .int 0 := by
  obtain ⟨t, ht, hzero⟩ := hzero
  by_cases htwo : 2 ≤ ts.length
  · have hsettled := settled_of_pairwise (.inr rfl) htwo
      (fun u hu => (h.operand u hu).hasHead) h.apart
    rw [(hsettled.neutral t ht).1] at hzero
    cases hzero
  · obtain ⟨u, rfl⟩ : ∃ u, ts = [u] :=
      List.length_eq_one_iff.1 (by have hpos := List.length_pos_of_mem ht; omega)
    rw [List.mem_singleton] at ht
    subst ht
    cases h.operand t (by simp) with
    | @number c hc =>
      have hvalue : c.value = 0 :=
        Option.some.inj (hc.toRat?_eq.symm.trans (Number.toRat?_of_isZero hzero))
      rw [List.map_singleton, collected, plain_num, hc.plain_eq, hvalue]
      rfl
    | power hx =>
      rw [hx.isZero] at hzero
      cases hzero

theorem IsPowerOf.baseIn?_plain (h : IsPowerOf x t) : baseIn? t.plain = some x := by
  cases h with
  | symbol => rfl
  | power => simp [free, baseIn?]

/-- The factors of a monomial beside its number: the power of each symbol by its total exponent,
where that is not zero. -/
structure IsMonomialTotal (ps fs : List Expr) : Prop where
  nodup : fs.Nodup
  mem_iff : ∀ f, f ∈ fs ↔ ∃ x, exponentSum x ps ≠ 0 ∧ f = powerOf x (exponentSum x ps)

/-- The totals determine the factors up to their order, and permuting the product keeps the totals.
-/
theorem IsMonomialTotal.perm {ps qs fs gs : List Expr} (h : IsMonomialTotal ps fs)
    (h' : IsMonomialTotal qs gs) (hperm : qs.Perm ps) : gs.Perm fs := by
  have hexponent : ∀ x, exponentSum x qs = exponentSum x ps := fun x => (hperm.map _).sum_eq
  refine (List.perm_ext_iff_of_nodup h'.nodup h.nodup).2 fun f => ?_
  rw [h'.mem_iff, h.mem_iff]
  simp only [hexponent]

namespace Simplify

theorem exists_monomialTotal {ps : List Expr} (hps : ∀ p ∈ ps, IsMonomialFactor p) :
    ∃ e, (reduce .multiply ps).value = .ok e ∧
      ((∃ p ∈ ps, p.isZero = true) → e.plain = .int 0) ∧
      ((∀ p ∈ ps, p.isZero = false) → ∃ fs,
        e.plain = collected .multiply (leading (numberProduct ps) ++ fs) ∧
          IsMonomialTotal ps fs) := by
  obtain ⟨e, ts, he, hplain, hts⟩ :=
    closedOperands_multiply.exists_collected normal_of_isMonomialFactor hps
  obtain ⟨hnumber, hexponent⟩ := monomial_totals_eq hps hts
  refine ⟨e, he, fun hzero => ?_, fun hall => ?_⟩
  · rw [hplain]
    refine hts.eq_zero ((numberProduct_eq_zero hts.operand).1 ?_)
    rw [hnumber]
    exact (numberProduct_eq_zero hps).2 hzero
  · -- without a zero among the operands no total is lost
    have hne : numberProduct ps ≠ 0 := by
      intro hzero
      obtain ⟨p, hp, hpz⟩ := (numberProduct_eq_zero hps).1 hzero
      rw [hall p hp] at hpz
      cases hpz
    obtain ⟨fs, hsplit, hfs, hapart, hsum⟩ := hts.exists_leading
    -- factors that stay side by side have different symbols
    have hkeys : fs.Pairwise fun a b => baseIn? a ≠ baseIn? b := by
      refine hapart.imp_of_mem fun {a b} ha hb hab => ?_
      obtain ⟨x, hx⟩ := hfs a ha
      obtain ⟨y, hy⟩ := hfs b hb
      exact baseIn?_ne_of_sideBySide hx hy hab
    refine ⟨fs.map plain, by rw [hplain, hsplit, hnumber], ?_, fun f => ?_⟩
    · refine List.pairwise_map.2 (hkeys.imp_of_mem fun {a b} ha hb hab heq => hab ?_)
      obtain ⟨x, hx⟩ := hfs a ha
      obtain ⟨y, hy⟩ := hfs b hb
      rw [hx.baseIn?_eq, hy.baseIn?_eq, ← hx.baseIn?_plain, ← hy.baseIn?_plain, heq]
    · rw [List.mem_map, exists_factor_iff hfs hkeys]
      simp only [← hsum, hexponent hne]

/-- A monomial reaches its canonical form, and the order of its factors only matters for the order
of the powers in it. -/
theorem reduce_multiply_monomial {ps : List Expr} (hps : ∀ p ∈ ps, IsMonomialFactor p) :
    ∃ e, (reduce .multiply ps).value = .ok e ∧
      ((∃ p ∈ ps, p.isZero = true) → e.plain = .int 0) ∧
      ((∀ p ∈ ps, p.isZero = false) → ∃ fs,
        e.plain = collected .multiply (leading (numberProduct ps) ++ fs) ∧
          IsMonomialTotal ps fs ∧
          ∀ qs, qs.Perm ps → ∃ e' gs, (reduce .multiply qs).value = .ok e' ∧
            e'.plain = collected .multiply (leading (numberProduct ps) ++ gs) ∧ gs.Perm fs) := by
  obtain ⟨e, he, hzero, hcanonical⟩ := exists_monomialTotal hps
  refine ⟨e, he, hzero, fun hall => ?_⟩
  obtain ⟨fs, hplain, htotal⟩ := hcanonical hall
  refine ⟨fs, hplain, htotal, fun qs hqs => ?_⟩
  obtain ⟨e', he', -, hcanonical'⟩ := exists_monomialTotal fun p hp => hps p (hqs.subset hp)
  obtain ⟨gs, hplain', htotal'⟩ := hcanonical' fun p hp => hall p (hqs.subset hp)
  have hnumber : numberProduct qs = numberProduct ps := (hqs.map _).prod_eq
  exact ⟨e', gs, he', hnumber ▸ hplain', htotal.perm htotal' hqs⟩

/-- `x * 3 * x ^ -2 * y * x * y ^ 2 * 1 / 6`, in which one symbol cancels. -/
theorem reduce_multiply_monomial_cancelling :
    let ps := [.free "x", .int 3, .app .power [.free "x", .int (-2)], .free "y", .free "x",
      .app .power [.free "y", .int 2], .num (.fraction (1 / 6))]
    (∀ p ∈ ps, IsMonomialFactor p) ∧ (∀ p ∈ ps, p.isZero = false) ∧
      ((reduce .multiply ps).value.toOption.any fun e => e.same (.app .multiply
        [.num (.fraction (1 / 2)), .app .power [.free "y", .int 3]])) = true ∧
      ∃ e fs, (reduce .multiply ps).value = .ok e ∧
        e.plain = collected .multiply (leading (numberProduct ps) ++ fs) ∧
          IsMonomialTotal ps fs := by
  intro ps
  have hps : ∀ p ∈ ps, IsMonomialFactor p := by
    have hsixth : Number.IsCanonical (.fraction (1 / 6)) := by
      show 2 ≤ (1 / 6 : ℚ).den
      decide +kernel
    simp only [ps, List.forall_mem_cons]
    exact ⟨.power .symbol, .number trivial, .power (.power (by decide) (by decide)),
      .power .symbol, .power .symbol, .power (.power (by decide) (by decide)), .number hsixth,
      by simp⟩
  have hall : ∀ p ∈ ps, p.isZero = false := by decide +kernel
  obtain ⟨e, he, -, hcanonical⟩ := reduce_multiply_monomial hps
  obtain ⟨fs, hplain, htotal, -⟩ := hcanonical hall
  exact ⟨hps, hall, by decide +kernel, e, fs, he, hplain, htotal⟩

end Simplify

end Reckoner
