import Reckoner.Proofs.Interpretation
import Reckoner.Proofs.Simplify.Again
import Reckoner.Proofs.Simplify.Value

/-!
# Sums and products of simple operands

Some sets of operands are closed under a sum or a product: whatever two of them become is one of
them again. The simplification of a list of such operands always has a value, which is one of them
or an application to several. Each time an operand is regrouped into a running result, the list that
is folded again is shorter than the list that was folded.
-/

namespace Reckoner

open Simplify Reckoner.Expr Logged

/-! ## Canonical numbers -/

namespace Number

/-- An integer, or a ratio that is not whole. -/
def IsCanonical : Number → Prop
  | .integer _ => True
  | .fraction q => 2 ≤ q.den
  | .double _ => False
  | .unit => True

theorem isCanonical_ofRat (q : ℚ) : (ofRat q).IsCanonical := by
  unfold ofRat
  split
  · trivial
  · next h =>
    have hpos := q.den_pos
    show 2 ≤ q.den
    omega

variable {a b c : Number}

/-- A canonical number is the literal of its value. -/
theorem IsCanonical.plain_eq (h : a.IsCanonical) : a.plain = ofRat a.value := by
  cases a with
  | integer n => simp [plain, value, toRat?, ofRat]
  | fraction q =>
    have hden : q.den ≠ 1 := fun h1 => absurd h (by simp [IsCanonical, h1])
    simp [plain, value, toRat?, ofRat, hden]
  | double x => exact h.elim
  | unit => rfl

theorem IsCanonical.toRat?_eq (h : a.IsCanonical) : a.toRat? = some a.value := by
  cases a with
  | double x => exact h.elim
  | _ => rfl

theorem IsCanonical.isSome_toRat? (h : a.IsCanonical) : a.toRat?.isSome = true := by
  rw [h.toRat?_eq]
  rfl

theorem isCanonical_of_compute? {op : Operator} (hop : op.IsMonoidal) (h : op.compute? a b = some c)
    (ha : a.toRat?.isSome = true) (hb : b.toRat?.isSome = true) : c.IsCanonical := by
  rcases hop with rfl | rfl
  · cases a <;> cases b <;> cases h <;> first | trivial | exact isCanonical_ofRat _
  · cases a <;> cases b <;> cases h <;> first | trivial | exact isCanonical_ofRat _

theorem isSome_compute? {op : Operator} (hop : op.IsMonoidal) (h : a.sameKind b = true) :
    ∃ c, op.compute? a b = some c := by
  rcases hop with rfl | rfl
  · exact Option.isSome_iff_exists.1 ((isSome_addAlike? a b).trans h)
  · exact Option.isSome_iff_exists.1 ((isSome_mulAlike? a b).trans h)

end Number

/-! ## The unit written as one -/

namespace Expr

mutual

/-- The expression with every unit written as an integer. -/
def plain : Expr → Expr
  | .num n => .num n.plain
  | .sym name role => .sym name role
  | .app op ps => .app op (plainList ps)

/-- The expressions of a list with every unit written as an integer. -/
def plainList : List Expr → List Expr
  | [] => []
  | p :: ps => plain p :: plainList ps

end

theorem plainList_eq_map (ps : List Expr) : plainList ps = ps.map plain := by
  induction ps with
  | nil => rfl
  | cons p ps ih => rw [plainList, ih, List.map_cons]

@[simp] theorem plain_num (n : Number) : (Expr.num n).plain = .num n.plain := by rw [plain]

@[simp] theorem plain_sym (name : String) (role : Role) :
    (Expr.sym name role).plain = .sym name role := by rw [plain]

@[simp] theorem plain_app (op : Operator) (ps : List Expr) :
    (Expr.app op ps).plain = .app op (ps.map plain) := by rw [plain, plainList_eq_map]

/-- An application to several operands, the operand itself if there is only one, and the neutral
number if there is none. -/
def collected (op : Operator) : List Expr → Expr
  | [] => (emptyApplication op).plain
  | [t] => t
  | ts => .app op ts

@[simp] theorem collected_add_nil : collected .add [] = .int 0 := rfl

@[simp] theorem collected_multiply_nil : collected .multiply [] = .int 1 := rfl

theorem collected_of_two_le {op : Operator} {ts : List Expr} (h : 2 ≤ ts.length) :
    collected op ts = .app op ts := by
  match ts, h with
  | _ :: _ :: _, _ => rfl

end Expr

/-! ## Totals -/

section Totals

variable {M κ : Type} [AddMonoid M] {f : Expr → M} {key : Expr → κ} {ts : List Expr} {t : Expr}

/-- A total to which only one item contributes. -/
theorem sum_map_eq_of_key (hkeys : ts.Pairwise fun a b => key a ≠ key b) (ht : t ∈ ts)
    (hf : ∀ s ∈ ts, key s ≠ key t → f s = 0) : (ts.map f).sum = f t := by
  induction ts with
  | nil => cases ht
  | cons a ts ih =>
    obtain ⟨ha, hts⟩ := List.pairwise_cons.1 hkeys
    rw [List.map_cons, List.sum_cons]
    rcases List.mem_cons.1 ht with rfl | ht
    · have hrest : (ts.map f).sum = 0 := by
        refine List.sum_eq_zero fun v hv => ?_
        obtain ⟨s, hs, rfl⟩ := List.mem_map.1 hv
        exact hf s (by simp [hs]) (ha s hs).symm
      rw [hrest, add_zero]
    · rw [hf a (by simp) (ha t ht), zero_add]
      exact ih hts ht fun s hs => hf s (by simp [hs])

/-- To a total that is not zero some item contributes. -/
theorem exists_mem_of_sum_map_ne_zero (h : (ts.map f).sum ≠ 0) : ∃ t ∈ ts, f t ≠ 0 := by
  by_contra hall
  push Not at hall
  refine h (List.sum_eq_zero fun v hv => ?_)
  obtain ⟨s, hs, rfl⟩ := List.mem_map.1 hv
  exact hall s hs

end Totals

namespace Simplify

variable {op : Operator} {reduce : Reducer} {a b : Number}

/-- Exact numbers of different kinds are promoted and computed. -/
theorem exists_combinePromoted (hop : op.IsMonoidal) (ha : a.toRat?.isSome = true)
    (hb : b.toRat?.isSome = true) :
    ∃ c, (combinePromoted op a b).value = .ok (some (.num c)) ∧ c.IsCanonical := by
  obtain ⟨p, hp⟩ := Option.isSome_iff_exists.1 ha
  obtain ⟨q, hq⟩ := Option.isSome_iff_exists.1 hb
  have hpair : a.promote? b = some (.fraction p, .fraction q) := by
    rw [Number.promote?, hp, hq]
  obtain ⟨c, hc⟩ := Number.isSome_compute? hop (Number.sameKind_of_promote? hpair)
  refine ⟨c, value_bind_eq_ok.2 ⟨_, by rw [hpair]; rfl, ?_⟩,
    Number.isCanonical_of_compute? hop hc rfl rfl⟩
  rw [value_combineNumbers, hc]
  rfl

/-- Two exact numbers are added or multiplied to a canonical number, or one of them is left as it
is. -/
theorem exists_combineAlone_exact (reduce : Reducer) (hop : op.IsMonoidal)
    (ha : a.toRat?.isSome = true) (hb : b.toRat?.isSome = true) :
    ∃ c, (combineAlone reduce op (.num a) (.num b)).value = .ok (some (.num c)) ∧
      (c.IsCanonical ∨ c = a ∨ c = b) := by
  by_cases hkind : a.sameKind b = true
  · obtain ⟨c, hc⟩ := Number.isSome_compute? hop hkind
    refine ⟨c, ?_, .inl (Number.isCanonical_of_compute? hop hc ha hb)⟩
    have halone : combineAlone reduce op (.num a) (.num b) = combineNumbers op a b := by
      rcases hop with rfl | rfl <;> simp only [combineAlone, hkind, if_true]
    rw [halone, value_combineNumbers, hc]
    rfl
  · have halone : combineAlone reduce op (.num a) (.num b) =
        combineObjects reduce op (.num a) (.num b) := by
      rcases hop with rfl | rfl <;>
        simp only [combineAlone, hkind, Bool.false_eq_true, if_false]
    rw [halone]
    rcases hop with rfl | rfl
    · show ∃ c, (combineTerms reduce (.num a) (.num b)).value = _ ∧ _
      obtain ⟨c, hc, hcanonical⟩ := exists_combinePromoted (.inl rfl) ha hb
      unfold combineTerms
      split
      · exact ⟨b, rfl, .inr (.inr rfl)⟩
      split
      · exact ⟨a, rfl, .inr (.inl rfl)⟩
      · exact ⟨c, hc, .inl hcanonical⟩
    · show ∃ c, (combineFactors reduce (.num a) (.num b)).value = _ ∧ _
      obtain ⟨c, hc, hcanonical⟩ := exists_combinePromoted (.inr rfl) ha hb
      unfold combineFactors
      split
      · exact ⟨.zero, rfl, .inl trivial⟩
      split
      · exact ⟨b, rfl, .inr (.inr rfl)⟩
      split
      · exact ⟨a, rfl, .inr (.inl rfl)⟩
      · exact ⟨c, hc, .inl hcanonical⟩

/-- Two canonical numbers are added or multiplied to a canonical number. -/
theorem exists_combineAlone_num (reduce : Reducer) (hop : op.IsMonoidal) (ha : a.IsCanonical)
    (hb : b.IsCanonical) :
    ∃ c, (combineAlone reduce op (.num a) (.num b)).value = .ok (some (.num c)) ∧
      c.IsCanonical := by
  obtain ⟨c, hc, hcanonical⟩ :=
    exists_combineAlone_exact reduce hop ha.isSome_toRat? hb.isSome_toRat?
  refine ⟨c, hc, ?_⟩
  rcases hcanonical with h | rfl | rfl
  · exact h
  · exact ha
  · exact hb

/-! ## Rules that apply -/

variable {l r e x : Expr}

theorem combineAlone_of_not_numbers (h : l.isNumber = false ∨ r.isNumber = false) :
    combineAlone reduce op l r = combineObjects reduce op l r := by
  unfold combineAlone
  split
  · rcases h with h | h <;> cases h
  · rfl

theorem value_combineFactors_of_zero (h : l.isZero = true ∨ r.isZero = true) :
    (combineFactors reduce l r).value = .ok (some (.num .zero)) := by
  unfold combineFactors
  rw [if_pos (by simpa using h)]
  rfl

theorem value_combineFactors_of_one_left (hr : r.isZero = false) (h : l.isOne = true) :
    (combineFactors reduce l r).value = .ok (some r) := by
  have hl : l.isZero = false := by
    cases l with
    | num n => cases n <;> simp_all [isOne, isZero, Number.isOne, Number.isZero]
    | _ => rfl
  unfold combineFactors
  simp only [hl, hr, h, Bool.or_self, Bool.false_eq_true, if_false, if_true]
  rfl

theorem value_combineFactors_of_one_right (hl : l.isZero = false) (hl' : l.isOne = false)
    (h : r.isOne = true) : (combineFactors reduce l r).value = .ok (some l) := by
  have hr : r.isZero = false := by
    cases r with
    | num n => cases n <;> simp_all [isOne, isZero, Number.isOne, Number.isZero]
    | _ => rfl
  unfold combineFactors
  simp only [hl, hr, hl', h, Bool.or_self, Bool.false_eq_true, if_false, if_true]
  rfl

/-- Equal factors become a square. -/
theorem value_combineFactors_of_same (hl : l.isNumber = false) (hr : r.isNumber = false)
    (h : l.same r = true) (he : (reduce .power [l, .num .two]).value = .ok e) :
    (combineFactors reduce l r).value = .ok (some e) := by
  cases l with
  | num n => cases hl
  | _ =>
    cases r with
    | num n => cases hr
    | _ =>
      simp only [combineFactors, isZero, isOne, Bool.or_self, Bool.false_eq_true, if_false, h,
        if_true]
      exact value_bind_eq_ok.2 ⟨e, he, rfl⟩

/-- Powers of one base add their exponents. -/
theorem value_combineFactors_of_powers (hl : l.isNumber = false) (hr : r.isNumber = false)
    (hs : l.same r = false) (h : l.powerParts.1.same r.powerParts.1 = true)
    (hu : l.powerParts.2.isUnit = false ∨ r.powerParts.2.isUnit = false)
    (hx : (reduce .add [l.powerParts.2, r.powerParts.2]).value = .ok x)
    (he : (reduce .power [l.powerParts.1, x]).value = .ok e) :
    (combineFactors reduce l r).value = .ok (some e) := by
  have hcond : (l.powerParts.1.same r.powerParts.1 &&
      !(l.powerParts.2.isUnit && r.powerParts.2.isUnit)) = true := by
    rcases hu with hu | hu <;> simp [h, hu]
  cases l with
  | num n => cases hl
  | _ =>
    cases r with
    | num n => cases hr
    | _ =>
      simp only [combineFactors, isZero, isOne, Bool.or_self, Bool.false_eq_true, if_false, hs,
        hcond, if_true]
      exact value_bind_eq_ok.2 ⟨x, hx, value_bind_eq_ok.2 ⟨e, he, rfl⟩⟩

theorem value_combineTerms_of_zero_left (h : l.isZero = true) :
    (combineTerms reduce l r).value = .ok (some r) := by
  unfold combineTerms
  rw [if_pos h]
  rfl

theorem value_combineTerms_of_zero_right (hl : l.isZero = false) (h : r.isZero = true) :
    (combineTerms reduce l r).value = .ok (some l) := by
  unfold combineTerms
  simp only [hl, h, Bool.false_eq_true, if_false, if_true]
  rfl

/-- Equal terms are doubled. -/
theorem value_combineTerms_of_same (hl : l.isNumber = false) (hr : r.isNumber = false)
    (h : l.same r = true) (he : (reduce .multiply [.num .two, l]).value = .ok e) :
    (combineTerms reduce l r).value = .ok (some e) := by
  cases l with
  | num n => cases hl
  | _ =>
    cases r with
    | num n => cases hr
    | _ =>
      simp only [combineTerms, isZero, Bool.false_eq_true, if_false, h, if_true]
      exact value_bind_eq_ok.2 ⟨e, he, rfl⟩

/-- Like terms add their coefficients. -/
theorem value_combineTerms_of_like {term term' : Expr} (hl : l.isNumber = false)
    (hr : r.isNumber = false) (hs : l.same r = false) (ha : l.coefficient? = some (a, term))
    (hb : r.coefficient? = some (b, term')) (h : term.same term' = true)
    (hx : (reduce .add [.num a, .num b]).value = .ok x)
    (he : (reduce .multiply [x, term]).value = .ok e) :
    (combineTerms reduce l r).value = .ok (some e) := by
  cases l with
  | num n => cases hl
  | _ =>
    cases r with
    | num n => cases hr
    | _ =>
      simp only [combineTerms, isZero, Bool.false_eq_true, if_false, hs, ha, hb, h, if_true]
      exact value_bind_eq_ok.2 ⟨x, hx, value_bind_eq_ok.2 ⟨e, he, rfl⟩⟩

/-! ## Applications to two operands -/

/-- An operator that has nothing to regroup in its left operand only has its own rules. -/
theorem value_combine_of_flat (hl : op.isAssociative = true → l.hasHead op.name = false) :
    (combine op l r).value = (combineAlone Simplify.reduce op l r).value := by
  rw [(matches_combine op l r).1]
  cases h : (combineAlone Simplify.reduce op l r).value with
  | error x => simp [combineStep, h, Except.bind]
  | ok o =>
    cases o with
    | some e => exact value_bind_eq_ok.2 ⟨some e, h, rfl⟩
    | none =>
      refine combineStep_of_none h ?_
      rintro ps ⟨hassoc, head, rfl, hname⟩
      simp [hasHead, hname, hassoc] at hl

theorem join_of_flat (hl : op.isAssociative = true → l.hasHead op.name = false) :
    join op l r = .app op [l, r] := by
  unfold join
  split
  · next head ps =>
    refine if_neg fun hown => ?_
    rw [Bool.and_eq_true] at hown
    simp [hasHead, hown.1, hown.2] at hl
  · rfl

theorem operands_of_flat {ps : List Expr}
    (h : op.isAssociative = true → ∀ p ∈ ps, p.hasHead op.name = false) :
    operands op ps = ps := by
  unfold operands
  split
  · next hassoc => exact flatten_of_flat (h hassoc)
  · rfl

theorem value_reduce_cons {p : Expr} {ps qs : List Expr} (hop : op.folds = true)
    (hops : operands op ps = p :: qs)
    (h : (foldOperands (combine op) op p qs).value = .ok e) :
    (Simplify.reduce op ps).value = (finish op e).value := by
  rw [(matches_reduce op ps).1, reduceStep, if_pos hop]
  unfold operands at hops
  rw [hops]
  simp [h, Except.bind]

/-- An application to two operands is what the operator makes of them, or else it stays. -/
theorem value_reduce_pair (hop : op.folds = true)
    (hl : op.isAssociative = true → l.hasHead op.name = false)
    (hr : op.isAssociative = true → r.hasHead op.name = false) {o : Option Expr}
    (h : (combineAlone Simplify.reduce op l r).value = .ok o) :
    (Simplify.reduce op [l, r]).value = (finish op (o.getD (.app op [l, r]))).value := by
  have hflat : op.isAssociative = true → ∀ p ∈ [l, r], p.hasHead op.name = false :=
    fun hassoc => by simp [hl hassoc, hr hassoc]
  refine value_reduce_cons hop (operands_of_flat hflat) ?_
  have hcombine := (value_combine_of_flat hl).trans h
  cases o with
  | some e => exact value_bind_eq_ok.2 ⟨some e, hcombine, value_bind_eq_ok.2 ⟨(), rfl, rfl⟩⟩
  | none => exact value_bind_eq_ok.2 ⟨none, hcombine, by rw [join_of_flat hl]; rfl⟩

/-! ## The last touch -/

theorem coefficientFirst_of_flat (he : e.hasHead Operator.multiply.name = false) :
    coefficientFirst e = e := by
  unfold coefficientFirst
  split
  · next head p ps =>
    have hname : (head.name == Operator.multiply.name) = false := he
    simp [hname]
  · rfl

theorem isEmptyProduct_of_flat (he : e.hasHead Operator.multiply.name = false) :
    isEmptyProduct e = false := by
  unfold isEmptyProduct
  split
  · exact he
  · rfl

theorem exists_perm_coefficientFirst (ts : List Expr) :
    ∃ us, coefficientFirst (.app .multiply ts) = .app .multiply us ∧ us.Perm ts := by
  unfold coefficientFirst
  split
  · next head p ps heq =>
    cases heq
    split
    · exact ⟨_, rfl, List.perm_middle.trans ((List.filter_append_perm _ ps).cons p)⟩
    · exact ⟨_, rfl, .rfl⟩
  · exact ⟨ts, rfl, .rfl⟩

/-! ## Closed sets of operands -/

/-- Whatever the operator makes of two of the operands is one of them again, and an application to
some of them is left as it is, stays beside, or gives way to the operand that it meets. -/
structure ClosedOperands (op : Operator) (T : Expr → Prop) : Prop where
  monoidal : op.IsMonoidal
  flat : ∀ {t}, T t → t.hasHead op.name = false
  empty : T (emptyApplication op)
  pair : ∀ {l r}, T l → T r → ∃ o, (combineAlone Simplify.reduce op l r).value = .ok o ∧
    ∀ e, o = some e → T e
  whole : ∀ ts {r}, T r → ∃ o,
    (combineAlone Simplify.reduce op (.app op ts) r).value = .ok o ∧
      ∀ e, o = some e → T e ∨ e = .app op ts

/-- One of the operands, or an application to at least two and at most `n` of them. -/
def Group (op : Operator) (T : Expr → Prop) (n : Nat) (e : Expr) : Prop :=
  T e ∨ ∃ ts, e = .app op ts ∧ 2 ≤ ts.length ∧ ts.length ≤ n ∧ ∀ t ∈ ts, T t

variable {T : Expr → Prop} {n : Nat}

theorem Group.mono {m : Nat} (h : Group op T m e) (hmn : m ≤ n) : Group op T n e := by
  rcases h with h | ⟨ts, rfl, htwo, hlength, hts⟩
  · exact .inl h
  · exact .inr ⟨ts, rfl, htwo, hlength.trans hmn, hts⟩

namespace ClosedOperands

theorem exists_combine (h : ClosedOperands op T) (hl : T l) (hr : T r) :
    ∃ o, (combine op l r).value = .ok o ∧ ∀ e, o = some e → T e := by
  rw [value_combine_of_flat fun _ => h.flat hl]
  exact h.pair hl hr

/-- A merge keeps the number of parameters. -/
theorem exists_merge (h : ClosedOperands op T) {ts : List Expr} (hts : ∀ t ∈ ts, T t) (hr : T r) :
    ∃ o, (merge (combine op) r ts).value = .ok o ∧
      ∀ us, o = some us → us.length = ts.length ∧ ∀ t ∈ us, T t := by
  induction ts with
  | nil => exact ⟨none, rfl, by simp⟩
  | cons t ts ih =>
    rw [List.forall_mem_cons] at hts
    obtain ⟨o, ho, hT⟩ := h.exists_combine hts.1 hr
    cases o with
    | some e =>
      refine ⟨some (e :: ts), value_bind_eq_ok.2 ⟨some e, ho, rfl⟩, ?_⟩
      rintro _ ⟨⟩
      exact ⟨rfl, List.forall_mem_cons.2 ⟨hT e rfl, hts.2⟩⟩
    | none =>
      obtain ⟨o', ho', hus⟩ := ih hts.2
      refine ⟨o'.map (t :: ·), value_bind_eq_ok.2 ⟨none, ho, value_bind_eq_ok.2 ⟨o', ho', rfl⟩⟩, ?_⟩
      intro us heq
      obtain ⟨us', rfl, rfl⟩ := Option.map_eq_some_iff.1 heq
      obtain ⟨hlength, hT'⟩ := hus us' rfl
      exact ⟨by simp [hlength], List.forall_mem_cons.2 ⟨hts.1, hT'⟩⟩

/-- A running result and the next operand, if lists of no more operands can be simplified. -/
theorem exists_combine_group (h : ClosedOperands op T) (hn : 1 ≤ n)
    (ih : ∀ us : List Expr, us.length ≤ n → (∀ t ∈ us, T t) →
      ∃ e, (Simplify.reduce op us).value = .ok e ∧ Group op T us.length e)
    (hl : Group op T n l) (hr : T r) :
    ∃ o, (combine op l r).value = .ok o ∧ (∀ e, o = some e → Group op T n e) ∧
      Group op T (n + 1) (join op l r) := by
  rcases hl with hl | ⟨ts, rfl, htwo, hlength, hts⟩
  · obtain ⟨o, ho, hT⟩ := h.exists_combine hl hr
    refine ⟨o, ho, fun e he => .inl (hT e he), .inr ⟨[l, r], join_of_flat fun _ => h.flat hl, ?_⟩⟩
    exact ⟨le_rfl, by simpa using hn, by simp [hl, hr]⟩
  · have hjoin : Group op T (n + 1) (join op (.app op ts) r) := by
      rw [join_own h.monoidal.isAssociative]
      refine .inr ⟨ts ++ [r], rfl, ?_⟩
      simp only [List.length_append, List.length_singleton, List.forall_mem_append,
        List.forall_mem_singleton]
      exact ⟨by omega, by omega, hts, hr⟩
    -- the running result is tried as a whole first, and then one operand of it after the other
    rw [(matches_combine op _ r).1]
    obtain ⟨o, ho, hT⟩ := h.whole ts hr
    cases o with
    | some e =>
      refine ⟨some e, value_bind_eq_ok.2 ⟨some e, ho, rfl⟩, ?_, hjoin⟩
      rintro _ ⟨⟩
      rcases hT e rfl with he | rfl
      · exact .inl he
      · exact .inr ⟨ts, rfl, htwo, hlength, hts⟩
    | none =>
      obtain ⟨o', ho', hus⟩ := h.exists_merge hts hr
      cases o' with
      | none =>
        refine ⟨none, value_bind_eq_ok.2 ⟨none, ho, ?_⟩, by simp, hjoin⟩
        simp only [h.monoidal.isAssociative, beq_self_eq_true, Bool.and_self, if_true]
        exact value_bind_eq_ok.2 ⟨none, ho', rfl⟩
      | some us =>
        -- an operand took up the next one; there are no more operands than before to fold again
        obtain ⟨hsame, hT'⟩ := hus us rfl
        obtain ⟨e, he, hgroup⟩ := ih us (hsame ▸ hlength) hT'
        refine ⟨some e, value_bind_eq_ok.2 ⟨none, ho, ?_⟩, ?_, hjoin⟩
        · simp only [h.monoidal.isAssociative, beq_self_eq_true, Bool.and_self, if_true]
          exact value_bind_eq_ok.2 ⟨some us, ho', value_bind_eq_ok.2 ⟨e, he, rfl⟩⟩
        · rintro _ ⟨⟩
          exact hgroup.mono (hsame ▸ hlength)

theorem exists_foldOperands (h : ClosedOperands op T) (hn : 1 ≤ n) {rest : List Expr}
    (ih : ∀ us : List Expr, us.length < n + rest.length → (∀ t ∈ us, T t) →
      ∃ e, (Simplify.reduce op us).value = .ok e ∧ Group op T us.length e)
    (hl : Group op T n l) (hrest : ∀ r ∈ rest, T r) :
    ∃ e, (foldOperands (combine op) op l rest).value = .ok e ∧
      Group op T (n + rest.length) e := by
  -- the running result is made of at most as many operands as were taken up
  induction rest generalizing l n with
  | nil => exact ⟨l, rfl, hl⟩
  | cons r rest ihrest =>
    rw [List.forall_mem_cons] at hrest
    simp only [List.length_cons] at ih ⊢
    obtain ⟨o, ho, hsome, hjoin⟩ :=
      h.exists_combine_group hn (fun us hus => ih us (by omega)) hl hrest.1
    have hnext : n + 1 + rest.length = n + (rest.length + 1) := by omega
    cases o with
    | some e =>
      obtain ⟨e', he', hgroup⟩ := ihrest (by omega) (fun us hus => ih us (by omega))
        ((hsome e rfl).mono (Nat.le_succ n)) hrest.2
      refine ⟨e', value_bind_eq_ok.2 ⟨some e, ho, value_bind_eq_ok.2 ⟨(), rfl, he'⟩⟩, ?_⟩
      exact hnext ▸ hgroup
    | none =>
      obtain ⟨e', he', hgroup⟩ := ihrest (by omega) (fun us hus => ih us (by omega)) hjoin hrest.2
      exact ⟨e', value_bind_eq_ok.2 ⟨none, ho, he'⟩, hnext ▸ hgroup⟩

theorem exists_finish (h : ClosedOperands op T) (he : Group op T n e) :
    ∃ e', (finish op e).value = .ok e' ∧ Group op T n e' := by
  rcases h.monoidal with rfl | rfl
  · exact ⟨e, rfl, he⟩
  rcases he with he | ⟨ts, rfl, htwo, hlength, hts⟩
  · have hflat := h.flat he
    refine ⟨e, ?_, .inl he⟩
    rw [finish, isEmptyProduct_of_flat hflat, coefficientFirst_of_flat hflat]
    rfl
  · obtain ⟨us, hus, hperm⟩ := exists_perm_coefficientFirst ts
    have hne : isEmptyProduct (.app .multiply ts) = false := by
      cases ts with
      | nil => simp at htwo
      | cons t ts => rfl
    refine ⟨.app .multiply us, ?_, .inr ⟨us, rfl, ?_⟩⟩
    · rw [finish, hne, hus]
      rfl
    · rw [hperm.length_eq]
      exact ⟨htwo, hlength, fun t ht => hts t (hperm.subset ht)⟩

/-- The simplification of a list of the operands gives one of them or an application to several. -/
theorem exists_reduce (h : ClosedOperands op T) {ps : List Expr} (hps : ∀ p ∈ ps, T p) :
    ∃ e, (Simplify.reduce op ps).value = .ok e ∧ Group op T ps.length e := by
  induction hlength : ps.length using Nat.strong_induction_on generalizing ps with
  | _ m ih =>
    subst hlength
    cases ps with
    | nil =>
      refine ⟨emptyApplication op, ?_, .inl h.empty⟩
      rw [(matches_reduce op []).1, reduceStep, if_pos h.monoidal.folds,
        if_pos h.monoidal.isAssociative]
      rfl
    | cons p ps =>
      have hflat : ∀ q ∈ p :: ps, q.hasHead op.name = false := fun q hq => h.flat (hps q hq)
      rw [List.forall_mem_cons] at hps
      obtain ⟨e, he, hgroup⟩ := h.exists_foldOperands (le_refl 1)
        (fun us hus hT => ih us.length (by simpa [Nat.add_comm] using hus) hT rfl)
        (.inl hps.1) hps.2
      obtain ⟨e', he', hgroup'⟩ := h.exists_finish hgroup
      refine ⟨e', ?_, ?_⟩
      · rw [value_reduce_cons h.monoidal.folds (operands_of_flat fun _ => hflat) he, he']
      · rwa [List.length_cons, Nat.add_comm]

end ClosedOperands

/-! ## What comes out -/

/-- The operand is the number that makes no difference. -/
def IsNeutral (op : Operator) (e : Expr) : Prop := e.plain = (emptyApplication op).plain

theorem isNeutral_iff (hop : op.IsMonoidal) : IsNeutral op e ↔
    ∃ n, e = .num n ∧ n.plain = if op = .add then .integer 0 else .integer 1 := by
  unfold IsNeutral
  rcases hop with rfl | rfl <;>
    cases e <;> simp [emptyApplication, Number.zero, Number.plain]

theorem not_isNeutral (hop : op.IsMonoidal)
    (h : e.isZero = false ∧ (op = .multiply → e.isOne = false)) : ¬ IsNeutral op e := by
  rw [isNeutral_iff hop]
  rintro ⟨n, rfl, hn⟩
  rcases hop with rfl | rfl
  · cases n <;> simp_all [Number.plain, isZero, Number.isZero]
  · cases n <;> simp_all [Number.plain, isOne, Number.isOne]

theorem denote_of_isNeutral (hop : op.IsMonoidal) (h : IsNeutral op e)
    {ρ : String → Role → Option ℚ} : e.denote ρ = (Expr.app op []).denote ρ := by
  obtain ⟨n, rfl, hn⟩ := (isNeutral_iff hop).1 h
  rw [denote_num, ← Number.toRat?_plain, hn]
  rcases hop with rfl | rfl <;> rfl

/-- The operands that are left when a list of them has been collected. -/
structure Collected (op : Operator) (T : Expr → Prop) (ps ts : List Expr) : Prop where
  operand : ∀ t ∈ ts, T t
  neutral : ∀ t ∈ ts, ¬ IsNeutral op t
  apart : ts.Pairwise (SideBySide op)
  number : op = .multiply → ∀ t ∈ ts.tail, t.isNumber = false
  value : ∀ σ v, (Expr.app op ps).denote (byName σ) = some v →
    (Expr.app op ts).denote (byName σ) = some v

/-- The simplification of a list of normal operands is made of operands that stay side by side, none
of which is neutral. -/
theorem ClosedOperands.exists_collected (h : ClosedOperands op T) (hnormal : ∀ {t}, T t → t.Normal)
    {ps : List Expr} (hps : ∀ p ∈ ps, T p) :
    ∃ e ts, (Simplify.reduce op ps).value = .ok e ∧ e.plain = collected op (ts.map plain) ∧
      Collected op T ps ts := by
  obtain ⟨e, he, hgroup⟩ := h.exists_reduce hps
  have hvalue : ∀ σ v, (Expr.app op ps).denote (byName σ) = some v → e.denote (byName σ) = some v :=
    fun σ v hv => denote_reduce hv he
  rcases hgroup with hT | ⟨ts, rfl, htwo, -, hts⟩
  · by_cases hneutral : IsNeutral op e
    · refine ⟨e, [], he, hneutral, by simp, by simp, .nil, by simp, fun σ v hv => ?_⟩
      rw [← denote_of_isNeutral h.monoidal hneutral]
      exact hvalue σ v hv
    · refine ⟨e, [e], he, rfl, by simpa using hT, by simpa using hneutral,
        List.pairwise_singleton _ _, by simp, fun σ v hv => ?_⟩
      exact (denote_singleton h.monoidal).2 (hvalue σ v hv)
  · have hnode := normal_app.1 (normal_reduce h.monoidal.isArithmetic.isProper
      (fun p hp => hnormal (hps p hp)) he)
    have hsettled := hnode.1.settled h.monoidal
    refine ⟨_, ts, he, ?_, hts, ?_, hsettled.apart, ?_, hvalue⟩
    · rw [plain_app, collected_of_two_le (by simpa using htwo)]
    · exact fun t ht => not_isNeutral h.monoidal (hsettled.neutral t ht)
    · rintro rfl
      exact hnode.1.2

end Simplify

end Reckoner
