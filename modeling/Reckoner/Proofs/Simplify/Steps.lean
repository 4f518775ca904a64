import Reckoner.Simplify.Basic

/-!
# What a step of the simplifier can do

Every statement about results of the simplifier is an induction over its recursion. This module says
once what a single step can do, so that such an induction never opens a rule again: `Outcome` lists
the ways in which an operator makes one expression of two, and the remaining theorems take apart the
merge with one parameter, the step, the fold and the simplification of an application.

`within_induction` ties the two functions together: a property of simplifiers of applications and a
property of steps hold at every depth if the step functions hand them on.
-/

namespace Reckoner

/-- The number that an operator computes from two numbers of one kind. -/
def Operator.compute? (op : Operator) (a b : Number) : Option Number :=
  match op with
  | .add => a.addAlike? b
  | .multiply => a.mulAlike? b
  | .power =>
    match a.powAlike b with
    | .ok c => c
    | .error _ => none
  | _ => none

/-! ## Shapes -/

namespace Expr

theorem asPower?_eq_some {e b n : Expr} (h : e.asPower? = some (b, n)) :
    ∃ head, e = .app head [b, n] ∧ head.name = Operator.power.name := by
  unfold asPower? at h
  split at h
  · next head b' n' =>
    split at h
    · next hname =>
      cases h
      exact ⟨head, rfl, by simpa using hname⟩
    · cases h
  · cases h

/-- An expression has no coefficient of its own, or it is a product that starts with it. -/
theorem coefficient?_eq_some {e term : Expr} {c : Number} (h : e.coefficient? = some (c, term)) :
    (e.isNumber = false ∧ c = .unit ∧ term = e) ∨
      ∃ head ps, e = .app head (.num c :: ps) ∧ head.name = Operator.multiply.name ∧
        (ps = [term] ∨ (2 ≤ ps.length ∧ term = .app .multiply ps)) := by
  unfold coefficient? at h
  split at h
  · cases h
  · next head a p ps =>
    split at h
    · next hname =>
      refine .inr ⟨head, p :: ps, ?_⟩
      cases ps with
      | nil =>
        cases h
        exact ⟨rfl, by simpa using hname, .inl rfl⟩
      | cons q qs =>
        cases h
        exact ⟨rfl, by simpa using hname, .inr ⟨by simp, rfl⟩⟩
    · cases h
      exact .inl ⟨rfl, rfl, rfl⟩
  · next hnum _ =>
    cases h
    refine .inl ⟨?_, rfl, rfl⟩
    cases e with
    | num n => exact absurd rfl (hnum n)
    | sym name role => rfl
    | app head ps => rfl

end Expr

namespace Simplify

open Logged

/-! ## Numbers -/

theorem value_combineNumbers (op : Operator) (a b : Number) :
    (combineNumbers op a b).value = .ok ((op.compute? a b).map .num) := by
  cases op with
  | power =>
    simp only [combineNumbers, powerOfNumbers, Operator.compute?]
    cases a.powAlike b with
    | ok r => rfl
    | error obstacle =>
      split
      · next heq => cases heq
      · split <;> simp [Except.bind]
  | _ => rfl

theorem value_combinePromoted {op : Operator} {a b : Number} {o : Option Expr}
    (h : (combinePromoted op a b).value = .ok o) :
    ∃ c d, a.promote? b = some (c, d) ∧ o = (op.compute? c d).map .num := by
  obtain ⟨⟨c, d⟩, hcd, ho⟩ := value_bind_eq_ok.1 h
  cases hp : a.promote? b with
  | none => simp [hp, ofDouble?] at hcd
  | some r =>
    simp only [hp, ofDouble?, value_done, Except.ok.injEq] at hcd
    rw [value_combineNumbers, Except.ok.injEq] at ho
    exact ⟨c, d, by rw [hcd], ho.symm⟩

/-! ## What becomes of two operands -/

/-- The ways in which an operator makes one expression of two operands by itself; `reduce` is the
simplifier of the applications that it builds on the way. -/
inductive Outcome (reduce : Reducer) : Operator → Expr → Expr → Expr → Prop where
  /-- Two numbers of one kind are computed. -/
  | alike {op : Operator} {a b c : Number} (h : op.compute? a b = some c) :
      Outcome reduce op (.num a) (.num b) (.num c)
  /-- Two numbers of different kinds are promoted first. -/
  | promoted {op : Operator} {a b a' b' c : Number} (hp : a.promote? b = some (a', b'))
      (h : op.compute? a' b' = some c) : Outcome reduce op (.num a) (.num b) (.num c)
  /-- A product with a factor zero. -/
  | zeroFactor {l r : Expr} (h : l.isZero = true ∨ r.isZero = true) :
      Outcome reduce .multiply l r (.num .zero)
  /-- A product with a left factor one. -/
  | oneFactorLeft {l r : Expr} (h : l.isOne = true) : Outcome reduce .multiply l r r
  /-- A product with a right factor one. -/
  | oneFactorRight {l r : Expr} (h : r.isOne = true) : Outcome reduce .multiply l r l
  /-- Equal factors become a square, unless they are numbers. -/
  | square {l r e : Expr} (h : l.same r = true)
      (he : (reduce .power [l, .num .two]).value = .ok e)
      (hn : l.isNumber = false ∨ r.isNumber = false) : Outcome reduce .multiply l r e
  /-- Powers of one base add their exponents, unless none of them has an exponent of its own. -/
  | powers {l r x e : Expr} (h : l.powerParts.1.same r.powerParts.1 = true)
      (hx : (reduce .add [l.powerParts.2, r.powerParts.2]).value = .ok x)
      (he : (reduce .power [l.powerParts.1, x]).value = .ok e)
      (hu : l.powerParts.2.isUnit = false ∨ r.powerParts.2.isUnit = false) :
      Outcome reduce .multiply l r e
  /-- A sum with a left term zero. -/
  | zeroTermLeft {l r : Expr} (h : l.isZero = true) : Outcome reduce .add l r r
  /-- A sum with a right term zero. -/
  | zeroTermRight {l r : Expr} (h : r.isZero = true) : Outcome reduce .add l r l
  /-- Equal terms are doubled, unless they are numbers. -/
  | double {l r e : Expr} (h : l.same r = true)
      (he : (reduce .multiply [.num .two, l]).value = .ok e)
      (hn : l.isNumber = false ∨ r.isNumber = false) : Outcome reduce .add l r e
  /-- Like terms that are not equal add their coefficients. -/
  | like {l r x e term term' : Expr} {a b : Number} (hl : l.coefficient? = some (a, term))
      (hr : r.coefficient? = some (b, term')) (h : term.same term' = true)
      (hx : (reduce .add [.num a, .num b]).value = .ok x)
      (he : (reduce .multiply [x, term]).value = .ok e) (hne : l.same r = false) :
      Outcome reduce .add l r e
  /-- The power zero. -/
  | zeroExponent {l r : Expr} (h : r.isZero = true) : Outcome reduce .power l r (.num .unit)
  /-- The power one. -/
  | oneExponent {l r : Expr} (h : r.isOne = true) : Outcome reduce .power l r l
  /-- A power of one. -/
  | oneBase {l r : Expr} (h : l.isOne = true) : Outcome reduce .power l r (.num .unit)
  /-- Zero to a positive power of another kind. -/
  | zeroBase {a b : Number} {x : Float} (h : a.isZero = true) (hb : b.isZero = false)
      (hx : b.toFloat? = some x) (hpos : 0 < x) : Outcome reduce .power (.num a) (.num b) (.num .zero)
  /-- A power of a power with a whole exponent. -/
  | tower {l r base m x e : Expr} (hl : l.asPower? = some (base, m)) (hr : r.isInteger = true)
      (hx : (reduce .multiply [m, r]).value = .ok x)
      (he : (reduce .power [base, x]).value = .ok e) : Outcome reduce .power l r e
  /-- An extension takes one of its operands. -/
  | chosen {l r e : Expr} {x : Extension} (h : e = l ∨ e = r) : Outcome reduce (.extension x) l r e
  /-- An extension adds two integers. -/
  | summed {l r : Expr} {x : Extension} {n : Int} :
      Outcome reduce (.extension x) l r (.int n)

variable {reduce : Reducer} {l r e : Expr}

theorem not_both_numbers (h : ∀ a b, l = .num a → r = .num b → False) :
    l.isNumber = false ∨ r.isNumber = false := by
  cases l with
  | num a =>
    cases r with
    | num b => exact (h a b rfl rfl).elim
    | sym name role => exact .inr rfl
    | app op ps => exact .inr rfl
  | sym name role => exact .inl rfl
  | app op ps => exact .inl rfl

theorem outcome_of_combineFactors (h : (combineFactors reduce l r).value = .ok (some e)) :
    Outcome reduce .multiply l r e := by
  unfold combineFactors at h
  split at h
  · next hz =>
    simp only [value_pure, Except.ok.injEq, Option.some.injEq] at h
    exact h ▸ .zeroFactor (by simpa using hz)
  split at h
  · next h1 =>
    simp only [value_pure, Except.ok.injEq, Option.some.injEq] at h
    exact h ▸ .oneFactorLeft h1
  split at h
  · next h1 =>
    simp only [value_pure, Except.ok.injEq, Option.some.injEq] at h
    exact h ▸ .oneFactorRight h1
  split at h
  · obtain ⟨c, d, hp, ho⟩ := value_combinePromoted h
    obtain ⟨v, hv, rfl⟩ := Option.map_eq_some_iff.1 ho.symm
    exact .promoted hp hv
  next hnum =>
  split at h
  · next hs =>
    obtain ⟨e', he', h'⟩ := value_bind_eq_ok.1 h
    simp only [value_pure, Except.ok.injEq, Option.some.injEq] at h'
    exact .square hs (h' ▸ he') (not_both_numbers hnum)
  · simp only at h
    split at h
    · next hs =>
      rw [Bool.and_eq_true, Bool.not_eq_true', Bool.and_eq_false_iff] at hs
      obtain ⟨x, hx, h'⟩ := value_bind_eq_ok.1 h
      obtain ⟨e', he', h''⟩ := value_bind_eq_ok.1 h'
      simp only [value_pure, Except.ok.injEq, Option.some.injEq] at h''
      exact .powers hs.1 hx (h'' ▸ he') hs.2
    · simp at h

theorem outcome_of_combineTerms (h : (combineTerms reduce l r).value = .ok (some e)) :
    Outcome reduce .add l r e := by
  unfold combineTerms at h
  split at h
  · next hz =>
    simp only [value_pure, Except.ok.injEq, Option.some.injEq] at h
    exact h ▸ .zeroTermLeft hz
  split at h
  · next hz =>
    simp only [value_pure, Except.ok.injEq, Option.some.injEq] at h
    exact h ▸ .zeroTermRight hz
  split at h
  · obtain ⟨c, d, hp, ho⟩ := value_combinePromoted h
    obtain ⟨v, hv, rfl⟩ := Option.map_eq_some_iff.1 ho.symm
    exact .promoted hp hv
  next hnum =>
  split at h
  · next hs =>
    obtain ⟨e', he', h'⟩ := value_bind_eq_ok.1 h
    simp only [value_pure, Except.ok.injEq, Option.some.injEq] at h'
    exact .double hs (h' ▸ he') (not_both_numbers hnum)
  next hne =>
  split at h
  · next hl hr =>
    split at h
    · next hs =>
      obtain ⟨x, hx, h'⟩ := value_bind_eq_ok.1 h
      obtain ⟨e', he', h''⟩ := value_bind_eq_ok.1 h'
      simp only [value_pure, Except.ok.injEq, Option.some.injEq] at h''
      exact .like hl hr hs hx (h'' ▸ he') (by simpa using hne)
    · simp at h
  · simp at h

theorem outcome_of_combinePower (h : (combinePower reduce l r).value = .ok (some e)) :
    Outcome reduce .power l r e := by
  unfold combinePower at h
  split at h
  · next hz =>
    simp only [value_pure, Except.ok.injEq, Option.some.injEq] at h
    exact h ▸ .zeroExponent hz
  next hnz =>
  split at h
  · next h1 =>
    simp only [value_pure, Except.ok.injEq, Option.some.injEq] at h
    exact h ▸ .oneExponent h1
  split at h
  · next h1 =>
    simp only [value_pure, Except.ok.injEq, Option.some.injEq] at h
    exact h ▸ .oneBase h1
  split at h
  · next a b _ _ =>
    -- two numbers end here, by promotion unless the base is zero and the exponent positive
    have hprom : ∀ {o}, (combinePromoted .power a b).value = .ok o → o = some e →
        Outcome reduce .power (.num a) (.num b) e := by
      intro o ho hoe
      obtain ⟨c, d, hp, hv⟩ := value_combinePromoted ho
      obtain ⟨v, hv', rfl⟩ := Option.map_eq_some_iff.1 (hv.symm.trans hoe)
      exact .promoted hp hv'
    split at h
    · next hz =>
      obtain ⟨x, hx, h'⟩ := value_bind_eq_ok.1 h
      cases hb : b.toFloat? with
      | none => simp [hb, ofDouble?] at hx
      | some y =>
        simp only [hb, ofDouble?, value_done, Except.ok.injEq] at hx
        subst hx
        split at h'
        · next hpos =>
          simp only [value_pure, Except.ok.injEq, Option.some.injEq] at h'
          exact h' ▸ .zeroBase hz (by simpa [Expr.isZero] using hnz) hb hpos
        · exact hprom h' rfl
    · exact hprom h rfl
  split at h
  · next hl =>
    split at h
    · next hr =>
      obtain ⟨x, hx, h'⟩ := value_bind_eq_ok.1 h
      obtain ⟨e', he', h''⟩ := value_bind_eq_ok.1 h'
      simp only [value_pure, Except.ok.injEq, Option.some.injEq] at h''
      exact .tower hl hr hx (h'' ▸ he')
    · simp at h
  · simp at h

theorem outcome_of_combineByRule {x : Extension} {rule : PairRule}
    (h : (combineByRule rule l r).value = .ok (some e)) : Outcome reduce (.extension x) l r e := by
  cases rule with
  | keep => simp [combineByRule] at h
  | larger =>
    simp only [combineByRule] at h
    unfold largerOf at h
    split at h
    · obtain ⟨x, -, h'⟩ := value_bind_eq_ok.1 h
      obtain ⟨y, -, h''⟩ := value_bind_eq_ok.1 h'
      simp only [value_pure, Except.ok.injEq, Option.some.injEq] at h''
      refine .chosen ?_
      split at h''
      · exact .inl h''.symm
      · exact .inr h''.symm
    · simp at h
  | sumIntegers =>
    simp only [combineByRule] at h
    obtain ⟨-, -, h'⟩ := value_bind_eq_ok.1 h
    split at h'
    · simp only [value_pure, Except.ok.injEq, Option.some.injEq] at h'
      exact h' ▸ .summed
    · simp at h'

/-- Whatever an operator makes of two operands is one of its outcomes. -/
theorem outcome_of_combineAlone {op : Operator}
    (h : (combineAlone reduce op l r).value = .ok (some e)) : Outcome reduce op l r e := by
  have hobj : (combineObjects reduce op l r).value = .ok (some e) → Outcome reduce op l r e := by
    intro h
    unfold combineObjects at h
    split at h
    · exact outcome_of_combineTerms h
    · exact outcome_of_combineFactors h
    · exact outcome_of_combinePower h
    · simp at h
    · split at h
      · exact outcome_of_combineByRule h
      · simp at h
  unfold combineAlone at h
  split at h
  · split at h
    · exact hobj h
    · split at h
      · rw [value_combineNumbers, Except.ok.injEq] at h
        obtain ⟨v, hv, rfl⟩ := Option.map_eq_some_iff.1 h
        exact .alike hv
      · exact hobj h
  · exact hobj h

/-! ## Regrouping -/

variable {combine : Combiner} {op : Operator}

/-- A merge replaces the first parameter that combines with the operand. -/
theorem merge_eq_some {ps qs : List Expr} (h : (merge combine r ps).value = .ok (some qs)) :
    ∃ as p bs e, ps = as ++ p :: bs ∧ qs = as ++ e :: bs ∧
      (combine p r).value = .ok (some e) := by
  induction ps generalizing qs with
  | nil => simp [merge] at h
  | cons p ps ih =>
    obtain ⟨o, ho, h'⟩ := value_bind_eq_ok.1 h
    cases o with
    | some e =>
      simp only [value_pure, Except.ok.injEq, Option.some.injEq] at h'
      exact ⟨[], p, ps, e, rfl, h'.symm, ho⟩
    | none =>
      obtain ⟨o', ho', h''⟩ := value_bind_eq_ok.1 h'
      simp only [value_pure, Except.ok.injEq] at h''
      obtain ⟨qs', rfl, rfl⟩ := Option.map_eq_some_iff.1 h''
      obtain ⟨as, q, bs, e, rfl, rfl, he⟩ := ih ho'
      exact ⟨p :: as, q, bs, e, rfl, rfl, he⟩

/-- A merge that fails has found no parameter that takes the operand. -/
theorem merge_eq_none {ps : List Expr} (h : (merge combine r ps).value = .ok none) :
    ∀ p ∈ ps, (combine p r).value = .ok none := by
  induction ps with
  | nil => simp
  | cons p ps ih =>
    obtain ⟨o, ho, h'⟩ := value_bind_eq_ok.1 h
    cases o with
    | some e => simp at h'
    | none =>
      obtain ⟨o', ho', h''⟩ := value_bind_eq_ok.1 h'
      simp only [value_pure, Except.ok.injEq, Option.map_eq_none_iff] at h''
      intro q hq
      rcases List.mem_cons.1 hq with rfl | hq
      · exact ho
      · exact ih (h'' ▸ ho') q hq

/-- The expression is an application that an associative operator regroups. -/
def Owns (op : Operator) (e : Expr) (ps : List Expr) : Prop :=
  op.isAssociative = true ∧ ∃ head, e = .app head ps ∧ head.name = op.name

/-- A step makes something of two operands by the operator's own rules, or by regrouping. -/
theorem combineStep_eq_some (h : (combineStep reduce combine op l r).value = .ok (some e)) :
    Outcome reduce op l r e ∨
      ∃ ps as p bs q, Owns op l ps ∧ ps = as ++ p :: bs ∧ (combine p r).value = .ok (some q) ∧
        (reduce op (as ++ q :: bs)).value = .ok e := by
  obtain ⟨o, ho, h'⟩ := value_bind_eq_ok.1 h
  cases o with
  | some e' =>
    simp only [value_pure, Except.ok.injEq, Option.some.injEq] at h'
    exact .inl (outcome_of_combineAlone (h' ▸ ho))
  | none =>
    refine .inr ?_
    cases l with
    | num n => simp at h'
    | sym name role => simp at h'
    | app head ps =>
      simp only at h'
      split at h'
      · next hown =>
        rw [Bool.and_eq_true, beq_iff_eq] at hown
        obtain ⟨o', ho', h''⟩ := value_bind_eq_ok.1 h'
        cases o' with
        | none => simp at h''
        | some qs =>
          obtain ⟨e', he', h3⟩ := value_bind_eq_ok.1 h''
          simp only [value_pure, Except.ok.injEq, Option.some.injEq] at h3
          -- the operand went into one of the parameters, and the new list was simplified
          obtain ⟨as, p, bs, q, rfl, rfl, hq⟩ := merge_eq_some ho'
          exact ⟨_, as, p, bs, q, ⟨hown.1, head, rfl, hown.2⟩, rfl, hq, h3 ▸ he'⟩
      · simp at h'

/-- A step that leaves two operands alone has tried them and every parameter. -/
theorem combineStep_eq_none (h : (combineStep reduce combine op l r).value = .ok none) :
    (combineAlone reduce op l r).value = .ok none ∧
      ∀ ps, Owns op l ps → ∀ p ∈ ps, (combine p r).value = .ok none := by
  obtain ⟨o, ho, h'⟩ := value_bind_eq_ok.1 h
  cases o with
  | some e' => simp at h'
  | none =>
    refine ⟨ho, ?_⟩
    rintro ps ⟨hassoc, head, rfl, hname⟩
    simp only [hassoc, hname, beq_self_eq_true, Bool.and_self, if_true] at h'
    obtain ⟨o', ho', h''⟩ := value_bind_eq_ok.1 h'
    cases o' with
    | none => exact merge_eq_none ho'
    | some qs =>
      obtain ⟨e', -, h3⟩ := value_bind_eq_ok.1 h''
      simp at h3

theorem merge_of_none {ps : List Expr} (h : ∀ p ∈ ps, (combine p r).value = .ok none) :
    (merge combine r ps).value = .ok none := by
  induction ps with
  | nil => rfl
  | cons p ps ih =>
    rw [List.forall_mem_cons] at h
    exact value_bind_eq_ok.2 ⟨none, h.1, value_bind_eq_ok.2 ⟨none, ih h.2, rfl⟩⟩

/-- A step leaves two operands alone if neither they nor a parameter and the operand combine. -/
theorem combineStep_of_none (h : (combineAlone reduce op l r).value = .ok none)
    (hps : ∀ ps, Owns op l ps → ∀ p ∈ ps, (combine p r).value = .ok none) :
    (combineStep reduce combine op l r).value = .ok none := by
  refine value_bind_eq_ok.2 ⟨none, h, ?_⟩
  cases l with
  | num n => rfl
  | sym name role => rfl
  | app head ps =>
    simp only
    split
    · next hown =>
      rw [Bool.and_eq_true, beq_iff_eq] at hown
      have hmerge := merge_of_none (hps ps ⟨hown.1, head, rfl, hown.2⟩)
      exact value_bind_eq_ok.2 ⟨none, hmerge, rfl⟩
    · rfl

/-! ## The fold -/

/-- What holds of the running result and the operands that are left holds at the end of a fold. -/
theorem foldOperands_induction {I : Expr → List Expr → Prop}
    (hsome : ∀ l r rest e, I l (r :: rest) → (combine l r).value = .ok (some e) → I e rest)
    (hnone : ∀ l r rest, I l (r :: rest) → (combine l r).value = .ok none →
      I (join op l r) rest) {running : Expr} {rest : List Expr} {e : Expr}
    (h0 : I running rest) (h : (foldOperands combine op running rest).value = .ok e) :
    I e [] := by
  induction rest generalizing running with
  | nil =>
    simp only [foldOperands, value_pure, Except.ok.injEq] at h
    exact h ▸ h0
  | cons r rest ih =>
    obtain ⟨o, ho, h'⟩ := value_bind_eq_ok.1 h
    cases o with
    | some e' =>
      obtain ⟨-, -, h''⟩ := value_bind_eq_ok.1 h'
      exact ih (hsome _ _ _ _ h0 ho) h''
    | none => exact ih (hnone _ _ _ h0 ho) h'

/-- The operands of a fold: an associative operator splices nested applications. -/
def operands (op : Operator) (ps : List Expr) : List Expr :=
  if op.isAssociative then flatten op.name ps else ps

/-- A fold ends with its result, and the one of a product with the coefficient in front. -/
theorem finish_eq_ok {e' : Expr} (h : (finish op e').value = .ok e) :
    (op = .multiply ∧ isEmptyProduct e' = false ∧ e = coefficientFirst e') ∨
      (op ≠ .multiply ∧ e = e') := by
  unfold finish at h
  split at h
  · split at h
    · simp at h
    · next hne =>
      simp only [value_pure, Except.ok.injEq] at h
      exact .inl ⟨rfl, by simpa using hne, h.symm⟩
  · next hop =>
    simp only [value_pure, Except.ok.injEq] at h
    exact .inr ⟨fun h' => hop h', h.symm⟩

/-- An application stays as it is, is empty, or is folded. -/
theorem reduceStep_eq_ok {ps : List Expr} (h : (reduceStep combine op ps).value = .ok e) :
    (op.folds = false ∧ e = .app op ps) ∨
      (op.folds = true ∧ operands op ps = [] ∧ e = emptyApplication op) ∨
      ∃ p qs e', op.folds = true ∧ operands op ps = p :: qs ∧
        (foldOperands combine op p qs).value = .ok e' ∧ (finish op e').value = .ok e := by
  unfold reduceStep at h
  split at h
  · next hf =>
    refine .inr ?_
    split at h
    · next heq =>
      simp only [value_pure, Except.ok.injEq] at h
      exact .inl ⟨hf, heq, h.symm⟩
    · next p qs heq =>
      obtain ⟨e', he', h'⟩ := value_bind_eq_ok.1 h
      exact .inr ⟨p, qs, e', hf, heq, he', h'⟩
  · next hf =>
    simp only [value_pure, Except.ok.injEq] at h
    exact .inl ⟨by simpa using hf, h.symm⟩

/-! ## The recursion -/

/-- What the step functions hand on, from a property of simplifiers of applications and one of
steps, holds at every depth. -/
theorem within_induction {R : Reducer → Prop} {C : Operator → Combiner → Prop}
    (hR : R fun _ _ => Logged.fail .unfinished) (hC : ∀ op, C op fun _ _ => Logged.fail .unfinished)
    (hreduce : ∀ combine : Operator → Combiner, (∀ op, C op (combine op)) →
      R fun op ps => reduceStep (combine op) op ps)
    (hcombine : ∀ op reduce combine, R reduce → C op combine →
      C op (combineStep reduce combine op)) (depth : Nat) :
    R (reduceWithin depth) ∧ ∀ op, C op (combineWithin depth op) := by
  induction depth with
  | zero => exact ⟨hR, hC⟩
  | succ depth ih =>
    obtain ⟨ihr, ihc⟩ := ih
    exact ⟨hreduce _ ihc, fun op => hcombine op _ _ ihr (ihc op)⟩

end Simplify

end Reckoner
