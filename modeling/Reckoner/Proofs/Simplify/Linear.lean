import Reckoner.Proofs.Simplify.Collect

/-!
# Linear sums

The terms of a linear sum are canonical numbers, symbols, and multiples of symbols. Such a sum
collects its like terms completely: what comes out has one term for each symbol whose coefficients
do not add up to zero, and at most one number. The totals are read off the value of the sum, which
simplification keeps: at a point where all symbols but one are zero, the sum is its constant plus
the coefficient of that symbol.
-/

namespace Reckoner

open Simplify Reckoner.Expr Logged

/-! ## Linear terms -/

/-- The symbol itself, or its product with a canonical number other than zero and one. -/
inductive IsMultipleOf (x : String) : Expr → Prop where
  | symbol : IsMultipleOf x (.free x)
  | product {c : Number} (canonical : c.IsCanonical) (zero : c.isZero = false)
      (one : c.isOne = false) : IsMultipleOf x (.app .multiply [.num c, .free x])

/-- A canonical number or a multiple of a symbol. -/
inductive IsLinearTerm : Expr → Prop where
  | number {c : Number} (canonical : c.IsCanonical) : IsLinearTerm (.num c)
  | multiple {x : String} {t : Expr} (h : IsMultipleOf x t) : IsLinearTerm t

namespace Expr

/-- The coefficient of a symbol in a linear term. -/
def coefficientIn (x : String) : Expr → ℚ
  | .sym y _ => if y = x then 1 else 0
  | .app _ [.num c, .sym y _] => if y = x then c.value else 0
  | _ => 0

/-- The constant that a linear term is. -/
def constantIn : Expr → ℚ
  | .num c => c.value
  | _ => 0

/-- The multiple of a symbol, which is not written as a product when the coefficient is one. -/
def multiple (c : ℚ) (x : String) : Expr :=
  if c = 1 then .free x else .app .multiply [.num (.ofRat c), .free x]

end Expr

variable {x y : String} {c : Number} {l r t : Expr}

/-- The coefficient of a multiple, with the symbol. -/
theorem IsMultipleOf.coefficient? (h : IsMultipleOf x t) :
    ∃ c, t.coefficient? = some (c, .free x) ∧ c.IsCanonical := by
  cases h with
  | symbol => exact ⟨.unit, rfl, trivial⟩
  | @product c hc _ _ => exact ⟨c, rfl, hc⟩

theorem IsMultipleOf.isNumber (h : IsMultipleOf x t) : t.isNumber = false := by
  cases h <;> rfl

theorem IsMultipleOf.isZero (h : IsMultipleOf x t) : t.isZero = false := by
  cases h <;> rfl

theorem IsMultipleOf.not_same (hl : IsMultipleOf x l) (hr : IsMultipleOf y r) (hxy : x ≠ y) :
    l.same r = false := by
  cases hl <;> cases hr <;> simp [free, same, sameList, hxy]

namespace Simplify

variable {reduce : Reducer}

/-! ## Products with a number -/

theorem factorsApart_multiple (h0 : c.isZero = false) (h1 : c.isOne = false) :
    FactorsApart (.num c) (.free x) where
  zero := ⟨h0, rfl⟩
  one := ⟨h1, rfl⟩
  number := .inr rfl
  same := rfl
  power h := by cases h

/-- A canonical number and a symbol are folded to a linear term. -/
theorem exists_foldOperands_multiple (hc : c.IsCanonical) (x : String) :
    ∃ e, (foldOperands (combine .multiply) .multiply (.num c) [.free x]).value = .ok e ∧
      (finish .multiply e).value = .ok e ∧ IsLinearTerm e := by
  have hfold : ∀ {o}, (combineFactors Simplify.reduce (.num c) (.free x)).value = .ok o →
      (foldOperands (combine .multiply) .multiply (.num c) [.free x]).value =
        .ok (o.getD (.app .multiply [.num c, .free x])) := by
    intro o ho
    have hcombine : (combine .multiply (.num c) (.free x)).value = .ok o :=
      (value_combine_of_flat fun _ => rfl).trans ho
    cases o with
    | none => exact value_bind_eq_ok.2 ⟨none, hcombine, rfl⟩
    | some e => exact value_bind_eq_ok.2 ⟨some e, hcombine, value_bind_eq_ok.2 ⟨(), rfl, rfl⟩⟩
  cases h0 : c.isZero with
  | true => exact ⟨_, hfold (value_combineFactors_of_zero (.inl h0)), rfl, .number trivial⟩
  | false =>
    cases h1 : c.isOne with
    | true =>
      exact ⟨_, hfold (value_combineFactors_of_one_left rfl h1), rfl, .multiple .symbol⟩
    | false =>
      exact ⟨_, hfold (combineFactors_eq_none.2 (factorsApart_multiple h0 h1)), rfl,
        .multiple (.product hc h0 h1)⟩

/-- The product of a canonical number and a symbol. -/
theorem exists_reduce_multiple (hc : c.IsCanonical) (x : String) :
    ∃ e, (Simplify.reduce .multiply [.num c, .free x]).value = .ok e ∧ IsLinearTerm e := by
  obtain ⟨e, hfold, hfinish, he⟩ := exists_foldOperands_multiple hc x
  exact ⟨e, (value_reduce_cons rfl rfl hfold).trans hfinish, he⟩

/-- Twice a multiple of a symbol. -/
theorem exists_reduce_double (h : IsMultipleOf x t) :
    ∃ e, (Simplify.reduce .multiply [.num .two, t]).value = .ok e ∧ IsLinearTerm e := by
  cases h with
  | symbol => exact exists_reduce_multiple (c := .two) trivial x
  | @product c hc _ _ =>
    obtain ⟨d, hd, hcanonical⟩ :=
      exists_combineAlone_num Simplify.reduce (.inr rfl) (a := .two) trivial hc
    obtain ⟨e, hfold, hfinish, he⟩ := exists_foldOperands_multiple hcanonical x
    -- the product is spliced, and its coefficient is doubled first
    have hpair : (combine .multiply (.num .two) (.num c)).value = .ok (some (.num d)) :=
      (value_combine_of_flat fun _ => rfl).trans hd
    have hoperands : operands .multiply [.num .two, .app .multiply [.num c, .free x]] =
        [.num .two, .num c, .free x] := rfl
    refine ⟨e, (value_reduce_cons rfl hoperands ?_).trans hfinish, he⟩
    exact value_bind_eq_ok.2 ⟨_, hpair, value_bind_eq_ok.2 ⟨(), rfl, hfold⟩⟩

/-! ## Sums of two terms -/

/-- Multiples of different symbols stay side by side. -/
theorem termsApart_multiples (hl : IsMultipleOf x l) (hr : IsMultipleOf y r) (hxy : x ≠ y) :
    TermsApart l r where
  zero := ⟨hl.isZero, hr.isZero⟩
  number := .inl hl.isNumber
  same := hl.not_same hr hxy
  like a term b term' ha hb := by
    obtain ⟨c, hc, -⟩ := hl.coefficient?
    obtain ⟨d, hd, -⟩ := hr.coefficient?
    cases hc.symm.trans ha
    cases hd.symm.trans hb
    simpa [free, same] using hxy

theorem termsApart_number_multiple (h0 : c.isZero = false) (hr : IsMultipleOf x r) :
    TermsApart (.num c) r where
  zero := ⟨h0, hr.isZero⟩
  number := .inr hr.isNumber
  same := by cases hr <;> rfl
  like a term b term' ha hb := by cases ha

/-- Multiples of one symbol become a linear term. -/
theorem exists_combineTerms_multiples (hl : IsMultipleOf x l) (hr : IsMultipleOf x r) :
    ∃ e, (combineTerms Simplify.reduce l r).value = .ok (some e) ∧ IsLinearTerm e := by
  cases hs : l.same r with
  | true =>
    obtain ⟨e, he, hterm⟩ := exists_reduce_double hl
    exact ⟨e, value_combineTerms_of_same hl.isNumber hr.isNumber hs he, hterm⟩
  | false =>
    obtain ⟨a, ha, hca⟩ := hl.coefficient?
    obtain ⟨b, hb, hcb⟩ := hr.coefficient?
    obtain ⟨c, hc, hcanonical⟩ :=
      exists_combineAlone_num Simplify.reduce (.inl rfl) hca hcb
    obtain ⟨e, he, hterm⟩ := exists_reduce_multiple hcanonical x
    have hsum : (Simplify.reduce .add [.num a, .num b]).value = .ok (.num c) :=
      value_reduce_pair rfl (fun _ => rfl) (fun _ => rfl) hc
    exact ⟨e, value_combineTerms_of_like hl.isNumber hr.isNumber hs ha hb (same_refl _) hsum he,
      hterm⟩

/-- A number and a multiple of a symbol, in either order. -/
theorem exists_combineTerms_number_multiple (c : Number) (hr : IsMultipleOf x r) :
    (∃ o, (combineTerms Simplify.reduce (.num c) r).value = .ok o ∧
      ∀ e, o = some e → IsLinearTerm e) ∧
    ∃ o, (combineTerms Simplify.reduce r (.num c)).value = .ok o ∧
      ∀ e, o = some e → IsLinearTerm e := by
  cases h0 : c.isZero with
  | true =>
    have hmultiple : ∀ e, some r = some e → IsLinearTerm e := by
      rintro _ ⟨⟩
      exact .multiple hr
    exact ⟨⟨_, value_combineTerms_of_zero_left h0, hmultiple⟩,
      ⟨_, value_combineTerms_of_zero_right hr.isZero h0, hmultiple⟩⟩
  | false =>
    have hapart := termsApart_number_multiple h0 hr
    exact ⟨⟨none, combineTerms_eq_none.2 hapart, by simp⟩,
      ⟨none, combineTerms_eq_none.2 hapart.symm, by simp⟩⟩

/-- A sum stays beside the terms other than zero. -/
theorem termsApart_sum (ts : List Expr) (hr : IsLinearTerm r) (h0 : r.isZero = false) :
    TermsApart (.app .add ts) r where
  zero := ⟨rfl, h0⟩
  number := .inl rfl
  same := by
    cases hr with
    | number => rfl
    | multiple h => cases h <;> rfl
  like a term b term' ha hb := by
    have hcoefficient : (Expr.app .add ts).coefficient? = some (.unit, .app .add ts) := by
      unfold Expr.coefficient?
      split
      · next heq => cases heq
      · next heq =>
        cases heq
        rfl
      · rfl
    cases hcoefficient.symm.trans ha
    cases hr with
    | number => cases hb
    | multiple h =>
      obtain ⟨c, hc, -⟩ := h.coefficient?
      cases hc.symm.trans hb
      rfl

theorem closedOperands_add : ClosedOperands .add IsLinearTerm where
  monoidal := .inl rfl
  flat ht := by
    cases ht with
    | number => rfl
    | multiple h => cases h <;> rfl
  empty := .number trivial
  pair hl hr := by
    cases hl with
    | @number a ha =>
      cases hr with
      | @number b hb =>
        obtain ⟨c, hc, hcanonical⟩ := exists_combineAlone_num Simplify.reduce (.inl rfl) ha hb
        refine ⟨_, hc, ?_⟩
        rintro _ ⟨⟩
        exact .number hcanonical
      | @multiple x r hr =>
        rw [combineAlone_of_not_numbers (.inr hr.isNumber)]
        exact (exists_combineTerms_number_multiple a hr).1
    | @multiple x l hl =>
      rw [combineAlone_of_not_numbers (.inl hl.isNumber)]
      cases hr with
      | @number b hb => exact (exists_combineTerms_number_multiple b hl).2
      | @multiple y r hr =>
        by_cases hxy : x = y
        · subst hxy
          obtain ⟨e, he, hterm⟩ := exists_combineTerms_multiples hl hr
          refine ⟨_, he, ?_⟩
          rintro _ ⟨⟩
          exact hterm
        · exact ⟨none, combineTerms_eq_none.2 (termsApart_multiples hl hr hxy), by simp⟩
  -- a sum as a whole takes up nothing but a zero
  whole := by
    intro ts r hr
    rw [combineAlone_of_not_numbers (.inl rfl)]
    cases h0 : r.isZero with
    | true =>
      refine ⟨_, value_combineTerms_of_zero_right rfl h0, ?_⟩
      rintro _ ⟨⟩
      exact .inr rfl
    | false => exact ⟨none, combineTerms_eq_none.2 (termsApart_sum ts hr h0), by simp⟩

theorem normal_of_isLinearTerm (h : IsLinearTerm t) : t.Normal := by
  cases h with
  | number => exact normal_num
  | @multiple x t h =>
    cases h with
    | symbol => exact normal_sym
    | @product c hc h0 h1 =>
      have hsettled : Settled .multiply [.num c, .free x] :=
        settled_pair (.inr rfl) rfl rfl (apart_multiply.2 (factorsApart_multiple h0 h1))
      exact normal_app.2 ⟨⟨hsettled, by simp [free, isNumber]⟩, by simp [free]⟩

end Simplify

/-! ## Totals -/

/-- The coefficients of a symbol in the terms, all together. -/
def coefficientSum (x : String) (ts : List Expr) : ℚ := (ts.map (coefficientIn x)).sum

/-- The constants among the terms, all together. -/
def constantSum (ts : List Expr) : ℚ := (ts.map constantIn).sum

/-- What a linear term is where one symbol is `v` and all others are zero. -/
theorem IsLinearTerm.denote_eq (h : IsLinearTerm t) (x : String) (v : ℚ) :
    t.denote (byName fun y => if y = x then v else 0) =
      some (constantIn t + coefficientIn x t * v) := by
  cases h with
  | number hc => simp [hc.toRat?_eq, constantIn, coefficientIn]
  | @multiple y t h =>
    cases h with
    | symbol => simp [free, byName, constantIn, coefficientIn]
    | @product c hc _ _ =>
      refine denote_pair.2 ⟨c.value, if y = x then v else 0, ?_, ?_, ?_⟩
      · rw [denote_num, hc.toRat?_eq]
      · rw [free, denote_sym]
        rfl
      · simp [Operator.value?, constantIn, coefficientIn, free]

theorem denote_linear {ts : List Expr} (h : ∀ t ∈ ts, IsLinearTerm t) (x : String) (v : ℚ) :
    (Expr.app .add ts).denote (byName fun y => if y = x then v else 0) =
      some (constantSum ts + coefficientSum x ts * v) := by
  induction ts with
  | nil => simp [denote, denoteList, Operator.value?, constantSum, coefficientSum]
  | cons t ts ih =>
    rw [List.forall_mem_cons] at h
    obtain ⟨vs, hvs, hsum⟩ := denote_app.1 (ih h.2)
    refine denote_app.2 ⟨_, .cons (h.1.denote_eq x v) hvs, ?_⟩
    simp only [Operator.value?, Option.some.injEq] at hsum ⊢
    simp only [List.sum_cons, hsum, constantSum, coefficientSum, List.map_cons]
    ring

/-- Simplification keeps the totals. -/
theorem totals_eq {ps ts : List Expr} (hps : ∀ p ∈ ps, IsLinearTerm p)
    (h : Collected .add IsLinearTerm ps ts) :
    constantSum ts = constantSum ps ∧ ∀ x, coefficientSum x ts = coefficientSum x ps := by
  have hvalue : ∀ x v, constantSum ts + coefficientSum x ts * v =
      constantSum ps + coefficientSum x ps * v := by
    intro x v
    have hts := h.value _ _ (denote_linear hps x v)
    rw [denote_linear h.operand x v] at hts
    exact Option.some.inj hts
  have hconstant : constantSum ts = constantSum ps := by simpa using hvalue "" 0
  exact ⟨hconstant, fun x => by simpa [hconstant] using hvalue x 1⟩

/-! ## One term for each symbol -/

/-- The symbol of a linear term; a number has none. -/
def symbolIn? : Expr → Option String
  | .sym x _ => some x
  | .app _ [.num _, .sym x _] => some x
  | _ => none

theorem IsMultipleOf.symbolIn?_eq (h : IsMultipleOf x t) : symbolIn? t = some x := by
  cases h <;> rfl

theorem IsMultipleOf.coefficientIn_ne_zero (h : IsMultipleOf x t) : coefficientIn x t ≠ 0 := by
  cases h with
  | symbol => simp [free, coefficientIn]
  | @product c hc h0 _ =>
    intro hzero
    have hvalue : c.value = 0 := by simpa [free, coefficientIn] using hzero
    rw [Number.isZero_of_toRat? (hvalue ▸ hc.toRat?_eq)] at h0
    cases h0

/-- A multiple of a symbol is written by its coefficient. -/
theorem IsMultipleOf.plain_eq (h : IsMultipleOf x t) :
    t.plain = multiple (coefficientIn x t) x := by
  cases h with
  | symbol => simp [free, multiple, coefficientIn]
  | @product c hc _ h1 =>
    have hvalue : c.value ≠ 1 := by
      intro hvalue
      have hplain : c.plain = .integer 1 := by rw [hc.plain_eq, hvalue]; rfl
      cases c <;> simp_all [Number.plain, Number.isOne]
    simp [free, multiple, coefficientIn, hvalue, hc.plain_eq]

theorem symbolIn?_of_coefficientIn_ne_zero (h : coefficientIn x t ≠ 0) : symbolIn? t = some x := by
  unfold coefficientIn at h
  split at h
  · next y role =>
    have hy : y = x := by
      by_contra hy
      simp [hy] at h
    simp [symbolIn?, hy]
  · next c y role =>
    have hy : y = x := by
      by_contra hy
      simp [hy] at h
    simp [symbolIn?, hy]
  · exact absurd rfl h

theorem IsLinearTerm.isMultipleOf (h : IsLinearTerm t) (hx : symbolIn? t = some x) :
    IsMultipleOf x t := by
  cases h with
  | number => cases hx
  | multiple h => cases h.symbolIn?_eq.symm.trans hx; exact h

theorem IsLinearTerm.number_of_symbolIn? (h : IsLinearTerm t) (hx : symbolIn? t = none) :
    ∃ c, t = .num c ∧ c.IsCanonical := by
  cases h with
  | number hc => exact ⟨_, rfl, hc⟩
  | multiple h => cases h.symbolIn?_eq.symm.trans hx

/-- Terms that a sum leaves alone have different symbols, or only one of them is a number. -/
theorem symbolIn?_ne_of_sideBySide (hl : IsLinearTerm l) (hr : IsLinearTerm r)
    (h : SideBySide .add l r) : symbolIn? l ≠ symbolIn? r := by
  have hapart := apart_add.1 (apart_of_combine h.1)
  intro heq
  cases hx : symbolIn? r with
  | none =>
    obtain ⟨c, rfl, -⟩ := hl.number_of_symbolIn? (heq.trans hx)
    obtain ⟨d, rfl, -⟩ := hr.number_of_symbolIn? hx
    rcases hapart.number with hn | hn <;> cases hn
  | some x =>
    obtain ⟨a, ha, -⟩ := (hl.isMultipleOf (heq.trans hx)).coefficient?
    obtain ⟨b, hb, -⟩ := (hr.isMultipleOf hx).coefficient?
    have hsame := hapart.like _ _ _ _ ha hb
    rw [same_refl] at hsame
    cases hsame

/-- Where the terms have different symbols, the total for a symbol is the coefficient of its term,
and the total constant is the number among them. -/
theorem exists_term_iff {ts : List Expr} (hts : ∀ t ∈ ts, IsLinearTerm t)
    (hneutral : ∀ t ∈ ts, ¬ IsNeutral .add t)
    (hkeys : ts.Pairwise fun a b => symbolIn? a ≠ symbolIn? b) (u : Expr) :
    (∃ t ∈ ts, t.plain = u) ↔
      (∃ x, coefficientSum x ts ≠ 0 ∧ u = multiple (coefficientSum x ts) x) ∨
        constantSum ts ≠ 0 ∧ u = .num (.ofRat (constantSum ts)) := by
  -- no two terms have the same symbol, so a total has one contribution only
  have hcoefficient : ∀ {x t}, t ∈ ts → IsMultipleOf x t →
      coefficientSum x ts = coefficientIn x t := by
    intro x t ht hx
    refine sum_map_eq_of_key hkeys ht fun s _ hs => ?_
    by_contra hne
    exact hs ((symbolIn?_of_coefficientIn_ne_zero hne).trans hx.symbolIn?_eq.symm)
  have hconstant : ∀ {c : Number}, .num c ∈ ts → constantSum ts = c.value := by
    intro c hc
    refine sum_map_eq_of_key hkeys hc fun s hs hne => ?_
    cases hts s hs with
    | number => exact absurd rfl hne
    | multiple h => cases h <;> rfl
  constructor
  · rintro ⟨t, ht, rfl⟩
    cases hts t ht with
    | @number c hc =>
      rw [hconstant ht]
      refine .inr ⟨fun hzero => hneutral _ ht ((isNeutral_iff (.inl rfl)).2 ⟨c, rfl, ?_⟩), ?_⟩
      · rw [hc.plain_eq, hzero]
        rfl
      · rw [plain_num, hc.plain_eq]
    | @multiple x t h =>
      refine .inl ⟨x, ?_⟩
      rw [hcoefficient ht h]
      exact ⟨h.coefficientIn_ne_zero, h.plain_eq⟩
  · rintro (⟨x, hne, rfl⟩ | ⟨hne, rfl⟩)
    · obtain ⟨t, ht, hx⟩ := exists_mem_of_sum_map_ne_zero hne
      have hmultiple := (hts t ht).isMultipleOf (symbolIn?_of_coefficientIn_ne_zero hx)
      rw [hcoefficient ht hmultiple]
      exact ⟨t, ht, hmultiple.plain_eq⟩
    · obtain ⟨t, ht, hx⟩ := exists_mem_of_sum_map_ne_zero hne
      cases hts t ht with
      | @number c hc =>
        rw [hconstant ht]
        exact ⟨_, ht, by rw [plain_num, hc.plain_eq]⟩
      | multiple h => cases h <;> exact absurd rfl hx

/-! ## Like terms are collected -/

theorem IsLinearTerm.symbolIn?_plain (h : IsLinearTerm t) : symbolIn? t.plain = symbolIn? t := by
  cases h with
  | number => rfl
  | multiple h =>
    cases h with
    | symbol => rfl
    | product => simp [free, symbolIn?]

/-- The terms that a sum of linear terms comes to: the multiple of each symbol by its total
coefficient, and the total constant, where they are not zero. -/
structure IsLinearTotal (ps ts : List Expr) : Prop where
  nodup : ts.Nodup
  mem_iff : ∀ t, t ∈ ts ↔
    (∃ x, coefficientSum x ps ≠ 0 ∧ t = multiple (coefficientSum x ps) x) ∨
      constantSum ps ≠ 0 ∧ t = .num (.ofRat (constantSum ps))

/-- The totals determine the terms up to their order, and permuting the sum keeps the totals. -/
theorem IsLinearTotal.perm {ps qs ts us : List Expr} (h : IsLinearTotal ps ts)
    (h' : IsLinearTotal qs us) (hperm : qs.Perm ps) : us.Perm ts := by
  have hconstant : constantSum qs = constantSum ps := (hperm.map _).sum_eq
  have hcoefficient : ∀ x, coefficientSum x qs = coefficientSum x ps :=
    fun x => (hperm.map _).sum_eq
  refine (List.perm_ext_iff_of_nodup h'.nodup h.nodup).2 fun t => ?_
  rw [h'.mem_iff, h.mem_iff, hconstant]
  simp only [hcoefficient]

namespace Simplify

theorem exists_linearTotal {ps : List Expr} (hps : ∀ p ∈ ps, IsLinearTerm p) :
    ∃ e ts, (reduce .add ps).value = .ok e ∧ e.plain = collected .add ts ∧
      IsLinearTotal ps ts := by
  obtain ⟨e, ts, he, hplain, hts⟩ := closedOperands_add.exists_collected normal_of_isLinearTerm hps
  have hkeys : ts.Pairwise fun a b => symbolIn? a ≠ symbolIn? b :=
    hts.apart.imp_of_mem fun ha hb hab =>
      symbolIn?_ne_of_sideBySide (hts.operand _ ha) (hts.operand _ hb) hab
  obtain ⟨hconstant, hcoefficient⟩ := totals_eq hps hts
  refine ⟨e, ts.map plain, he, hplain, ?_, fun t => ?_⟩
  · refine List.pairwise_map.2 (hkeys.imp_of_mem fun ha hb hab heq => hab ?_)
    rw [← (hts.operand _ ha).symbolIn?_plain, ← (hts.operand _ hb).symbolIn?_plain, heq]
  · rw [List.mem_map, exists_term_iff hts.operand hts.neutral hkeys, hconstant]
    simp only [hcoefficient]

/-- A sum of linear terms collects them completely, and the order of the terms only matters for the
order of the result. -/
theorem reduce_add_linear {ps : List Expr} (hps : ∀ p ∈ ps, IsLinearTerm p) :
    ∃ e ts, (reduce .add ps).value = .ok e ∧ e.plain = collected .add ts ∧ IsLinearTotal ps ts ∧
      ∀ qs, qs.Perm ps → ∃ e' us, (reduce .add qs).value = .ok e' ∧
        e'.plain = collected .add us ∧ us.Perm ts := by
  obtain ⟨e, ts, he, hplain, htotal⟩ := exists_linearTotal hps
  refine ⟨e, ts, he, hplain, htotal, fun qs hqs => ?_⟩
  obtain ⟨e', us, he', hplain', htotal'⟩ :=
    exists_linearTotal fun p hp => hps p (hqs.subset hp)
  exact ⟨e', us, he', hplain', htotal.perm htotal' hqs⟩

/-- `x + 3 - x + y / 2 + y + 1 / 2`, in which one symbol cancels. -/
theorem reduce_add_linear_cancelling :
    let ps := [.free "x", .int 3, .app .multiply [.int (-1), .free "x"],
      .app .multiply [.num (.fraction (1 / 2)), .free "y"], .free "y", .num (.fraction (1 / 2))]
    (∀ p ∈ ps, IsLinearTerm p) ∧
      ((reduce .add ps).value.toOption.any fun e => e.same (.app .add
        [.num (.fraction (7 / 2)), .app .multiply [.num (.fraction (3 / 2)), .free "y"]])) = true ∧
      ∃ e ts, (reduce .add ps).value = .ok e ∧ e.plain = collected .add ts ∧
        IsLinearTotal ps ts := by
  intro ps
  have hps : ∀ p ∈ ps, IsLinearTerm p := by
    have hhalf : Number.IsCanonical (.fraction (1 / 2)) := by
      show 2 ≤ (1 / 2 : ℚ).den
      decide +kernel
    simp only [ps, List.forall_mem_cons]
    refine ⟨.multiple .symbol, .number trivial, .multiple (.product trivial rfl rfl),
      .multiple (.product hhalf ?_ ?_), .multiple .symbol, .number hhalf, by simp⟩
    · decide +kernel
    · decide +kernel
  obtain ⟨e, ts, he, hplain, htotal, -⟩ := reduce_add_linear hps
  exact ⟨hps, by decide +kernel, e, ts, he, hplain, htotal⟩

end Simplify

end Reckoner
