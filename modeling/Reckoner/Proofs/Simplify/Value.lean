import Reckoner.Proofs.Meaning
import Mathlib.Data.List.Perm.Basic
import Mathlib.Tactic.Ring

/-!
# Simplification keeps the value

Whatever a step of the simplifier makes of two operands denotes what the application to these two
operands denotes, if that denotes anything. The recursion hands this on, so a simplified application
denotes what the application denotes. No rule needs more than that the application is defined: where
a power of zero would come to have a negative exponent, it had one before.
-/

namespace Reckoner

open Simplify Reckoner.Expr

variable {σ : String → ℚ}

/-! ## Parts -/

namespace Expr

/-- Expressions that are the same have one value. -/
theorem denote_eq_of_same {a b : Expr} {v w : ℚ} (h : a.same b = true)
    (ha : a.denote (byName σ) = some v) (hb : b.denote (byName σ) = some w) : v = w := by
  induction a using Expr.induction generalizing b v w with
  | num m =>
    cases b with
    | num n =>
      rw [denote_num] at ha hb
      exact Number.toRat?_eq_of_same (by simpa [same] using h) ha hb
    | sym name role => simp [same] at h
    | app op ps => simp [same] at h
  | sym name role =>
    cases b with
    | num n => simp [same] at h
    | sym name' role' =>
      have hn : name = name' := by simpa [same] using h
      subst hn
      simpa [byName] using ha.symm.trans hb
    | app op ps => simp [same] at h
  | app op ps ih =>
    cases b with
    | num n => simp [same] at h
    | sym name role => simp [same] at h
    | app op' qs =>
      obtain ⟨vs, hvs, hv⟩ := denote_app.1 ha
      obtain ⟨ws, hws, hw⟩ := denote_app.1 hb
      rw [same, Bool.and_eq_true, beq_iff_eq] at h
      obtain ⟨hname, hsame⟩ := h
      -- the names agree, and among operators that have a value the name tells the operator
      have hop := (Operator.isArithmetic_of_value? hv).isOrdinary _
        (Operator.isArithmetic_of_value? hw) hname
      subst hop
      have hvw : vs = ws := by
        -- the parameters are compared one by one; the induction on them must not depend on the rest
        clear ha hb hv hw hname
        induction hvs generalizing qs ws with
        | nil =>
          cases hws with
          | nil => rfl
          | cons _ _ => simp [sameList] at hsame
        | cons hp _ ihps =>
          cases hws with
          | nil => simp [sameList] at hsame
          | cons hq hqs =>
            rw [sameList, Bool.and_eq_true] at hsame
            rw [ih _ (by simp) hsame.1 hp hq,
              ihps (fun p hp => ih p (by simp [hp])) _ _ hqs hsame.2]
      subst hvw
      exact Option.some.inj (hv.symm.trans hw)

variable {ρ : String → Role → Option ℚ}

theorem denote_asPower? {e b n : Expr} {v : ℚ} (hp : e.asPower? = some (b, n))
    (h : e.denote ρ = some v) :
    ∃ x y, b.denote ρ = some x ∧ n.denote ρ = some y ∧ rationalPower? x y = some v := by
  obtain ⟨head, rfl, hname⟩ := asPower?_eq_some hp
  obtain ⟨x, y, hx, hy, hv⟩ := denote_pair.1 h
  obtain rfl : head = .power := (Operator.isArithmetic_of_value? hv).isOrdinary _
    Operator.isArithmetic_power hname
  exact ⟨x, y, hx, hy, by simpa [Operator.value?] using hv⟩

/-- Every expression has the value of its base and exponent. -/
theorem denote_powerParts {e : Expr} {v : ℚ} (h : e.denote ρ = some v) :
    ∃ x y, e.powerParts.1.denote ρ = some x ∧ e.powerParts.2.denote ρ = some y ∧
      rationalPower? x y = some v := by
  unfold powerParts
  cases hp : e.asPower? with
  | none =>
    refine ⟨v, 1, h, rfl, rationalPower?_eq_some.2 ⟨1, by simp, .inr (by simp), by simp⟩⟩
  | some r => exact denote_asPower? hp h

/-- A term has its coefficient times the rest as its value. -/
theorem denote_coefficient? {e term : Expr} {c : Number} {v : ℚ}
    (hc : e.coefficient? = some (c, term)) (h : e.denote ρ = some v) :
    ∃ x y, c.toRat? = some x ∧ term.denote ρ = some y ∧ v = x * y := by
  rcases coefficient?_eq_some hc with ⟨-, rfl, rfl⟩ | ⟨head, ps, rfl, hname, hterm⟩
  · exact ⟨1, v, rfl, h, by simp⟩
  · obtain ⟨vs, hvs, hv⟩ := denote_app.1 h
    obtain rfl : head = .multiply := (Operator.isArithmetic_of_value? hv).isOrdinary _
      Operator.isArithmetic_multiply hname
    cases hvs with
    | @cons _ x _ xs hx hxs =>
      refine ⟨x, xs.prod, by simpa using hx, ?_, by simpa [Operator.value?] using hv.symm⟩
      rcases hterm with rfl | ⟨-, rfl⟩
      · cases hxs with
        | cons hy hys =>
          cases hys with
          | nil => simpa using hy
      · exact denote_app.2 ⟨xs, hxs, rfl⟩

theorem denote_of_isZero {e : Expr} (h : e.isZero = true) : e.denote ρ = some 0 := by
  cases e with
  | num n => exact Number.toRat?_of_isZero h
  | sym name role => cases h
  | app op ps => cases h

theorem denote_of_isOne {e : Expr} (h : e.isOne = true) : e.denote ρ = some 1 := by
  cases e with
  | num n => exact Number.toRat?_of_isOne h
  | sym name role => cases h
  | app op ps => cases h

end Expr

namespace Simplify

/-! ## Steps -/

/-- A simplified application denotes what the application denotes. -/
def ReducerSound (σ : String → ℚ) (f : Reducer) : Prop :=
  ∀ op ps e v, (Expr.app op ps).denote (byName σ) = some v → (f op ps).value = .ok e →
    e.denote (byName σ) = some v

/-- What two operands become denotes what the application to them denotes. -/
def CombinerSound (σ : String → ℚ) (op : Operator) (c : Combiner) : Prop :=
  ∀ l r e v, (Expr.app op [l, r]).denote (byName σ) = some v → (c l r).value = .ok (some e) →
    e.denote (byName σ) = some v

/-- What a product makes of two factors has their product as its value. -/
theorem Outcome.denote_multiply {reduce : Reducer} {l r e : Expr} {x y : ℚ}
    (hf : ReducerSound σ reduce) (h : Outcome reduce .multiply l r e)
    (hl : l.denote (byName σ) = some x) (hr : r.denote (byName σ) = some y) :
    e.denote (byName σ) = some (x * y) := by
  have hval : Operator.multiply.value? [x, y] = some (x * y) := by simp [Operator.value?]
  cases h with
  | alike h => exact Operator.toRat?_of_compute? h (by simpa using hl) (by simpa using hr) hval
  | promoted hp h =>
    obtain ⟨ha, hb⟩ := Number.toRat?_of_promote? hp (by simpa using hl) (by simpa using hr)
    exact Operator.toRat?_of_compute? h ha hb hval
  | zeroFactor h =>
    have hz : x * y = 0 := by
      rcases h with h | h
      · rw [Option.some.inj (hl.symm.trans (denote_of_isZero h)), zero_mul]
      · rw [Option.some.inj (hr.symm.trans (denote_of_isZero h)), mul_zero]
    rw [hz]
    rfl
  | oneFactorLeft h => rw [Option.some.inj (hl.symm.trans (denote_of_isOne h)), one_mul, hr]
  | oneFactorRight h => rw [Option.some.inj (hr.symm.trans (denote_of_isOne h)), mul_one, hl]
  | square h he =>
    have hxy : x = y := denote_eq_of_same h hl hr
    subst hxy
    refine hf _ _ _ _ (denote_pair.2 ⟨x, 2, hl, rfl, ?_⟩) he
    have h2 : rationalPower? x 2 = some (x * x) :=
      rationalPower?_eq_some.2 ⟨2, by norm_num, .inr (by norm_num), by rw [zpow_two]⟩
    simpa [Operator.value?] using h2
  -- powers of one base are multiplied by adding exponents, and both are defined here
  | powers h hx he =>
    obtain ⟨b, m, hb, hm, hbm⟩ := denote_powerParts hl
    obtain ⟨b', n, hb', hn, hbn⟩ := denote_powerParts hr
    have hbb : b = b' := denote_eq_of_same h hb hb'
    subst hbb
    have hsum := hf _ _ _ (m + n) (denote_pair.2 ⟨m, n, hm, hn, by simp [Operator.value?]⟩) hx
    refine hf _ _ _ _ (denote_pair.2 ⟨b, m + n, hb, hsum, ?_⟩) he
    simpa [Operator.value?] using rationalPower?_add hbm hbn

/-- What a sum makes of two terms has their sum as its value. -/
theorem Outcome.denote_add {reduce : Reducer} {l r e : Expr} {x y : ℚ}
    (hf : ReducerSound σ reduce) (h : Outcome reduce .add l r e)
    (hl : l.denote (byName σ) = some x) (hr : r.denote (byName σ) = some y) :
    e.denote (byName σ) = some (x + y) := by
  have hval : Operator.add.value? [x, y] = some (x + y) := by simp [Operator.value?]
  cases h with
  | alike h => exact Operator.toRat?_of_compute? h (by simpa using hl) (by simpa using hr) hval
  | promoted hp h =>
    obtain ⟨ha, hb⟩ := Number.toRat?_of_promote? hp (by simpa using hl) (by simpa using hr)
    exact Operator.toRat?_of_compute? h ha hb hval
  | zeroTermLeft h => rw [Option.some.inj (hl.symm.trans (denote_of_isZero h)), zero_add, hr]
  | zeroTermRight h => rw [Option.some.inj (hr.symm.trans (denote_of_isZero h)), add_zero, hl]
  | double h he =>
    have hxy : x = y := denote_eq_of_same h hl hr
    subst hxy
    refine hf _ _ _ _ (denote_pair.2 ⟨2, x, rfl, hl, ?_⟩) he
    simp [Operator.value?, two_mul]
  | like hcl hcr h hx he =>
    obtain ⟨a, t, ha, ht, rfl⟩ := denote_coefficient? hcl hl
    obtain ⟨b, t', hb, ht', rfl⟩ := denote_coefficient? hcr hr
    have htt : t = t' := denote_eq_of_same h ht ht'
    subst htt
    have hsum := hf _ _ _ (a + b) (denote_pair.2
      ⟨a, b, denote_num.trans ha, denote_num.trans hb, by simp [Operator.value?]⟩) hx
    refine hf _ _ _ _ (denote_pair.2 ⟨a + b, t, hsum, ht, ?_⟩) he
    simp [Operator.value?, add_mul]

/-- What a power makes of base and exponent has the power as its value, where that is defined. -/
theorem Outcome.denote_power {reduce : Reducer} {l r e : Expr} {x y v : ℚ}
    (hf : ReducerSound σ reduce) (h : Outcome reduce .power l r e)
    (hl : l.denote (byName σ) = some x) (hr : r.denote (byName σ) = some y)
    (hv : rationalPower? x y = some v) : e.denote (byName σ) = some v := by
  have hval : Operator.power.value? [x, y] = some v := by simpa [Operator.value?] using hv
  obtain ⟨n, hn, hdef, rfl⟩ := rationalPower?_eq_some.1 hv
  cases h with
  | alike h => exact Operator.toRat?_of_compute? h (by simpa using hl) (by simpa using hr) hval
  | promoted hp h =>
    obtain ⟨ha, hb⟩ := Number.toRat?_of_promote? hp (by simpa using hl) (by simpa using hr)
    exact Operator.toRat?_of_compute? h ha hb hval
  | zeroExponent h =>
    have hn0 : n = 0 := by
      have hy := Option.some.inj (hr.symm.trans (denote_of_isZero h))
      exact_mod_cast hn.symm.trans hy
    rw [hn0, zpow_zero]
    rfl
  | oneExponent h =>
    have hn1 : n = 1 := by
      have hy := Option.some.inj (hr.symm.trans (denote_of_isOne h))
      exact_mod_cast hn.symm.trans hy
    rw [hn1, zpow_one, hl]
  | oneBase h =>
    rw [Option.some.inj (hl.symm.trans (denote_of_isOne h)), one_zpow]
    rfl
  | zeroBase ha hb _ _ =>
    -- the exponent is not zero, and it is not negative since the power is defined
    have hx0 : x = 0 := Option.some.inj (hl.symm.trans (denote_of_isZero ha))
    have hn0 : n ≠ 0 := by
      rintro rfl
      rw [denote_num, hn, Int.cast_zero] at hr
      rw [Number.isZero_of_toRat? hr] at hb
      cases hb
    rw [hx0, zero_zpow n hn0]
    rfl
  | tower hp _ hx he =>
    obtain ⟨b, m, hb, hm, hbm⟩ := denote_asPower? hp hl
    have hprod := hf _ _ _ (m * y) (denote_pair.2 ⟨m, y, hm, hr, by simp [Operator.value?]⟩) hx
    refine hf _ _ _ _ (denote_pair.2 ⟨b, m * y, hb, hprod, ?_⟩) he
    simpa [Operator.value?] using rationalPower?_mul hbm hv

/-- What an operator makes of two operands by itself is sound. -/
theorem Outcome.denote {reduce : Reducer} {op : Operator} {l r e : Expr} {v : ℚ}
    (hf : ReducerSound σ reduce) (h : Outcome reduce op l r e)
    (hv : (Expr.app op [l, r]).denote (byName σ) = some v) : e.denote (byName σ) = some v := by
  obtain ⟨x, y, hl, hr, hv⟩ := denote_pair.1 hv
  rcases Operator.isArithmetic_of_value? hv with rfl | rfl | rfl
  · have hv' : v = x + y := by simpa [Operator.value?] using hv.symm
    exact hv' ▸ h.denote_add hf hl hr
  · have hv' : v = x * y := by simpa [Operator.value?] using hv.symm
    exact hv' ▸ h.denote_multiply hf hl hr
  · exact h.denote_power hf hl hr (by simpa [Operator.value?] using hv)

/-! ## Regrouping -/

/-- An associative operator that has a value is a sum or a product. -/
theorem isMonoidal_of_value? {op : Operator} {vs : List ℚ} {v : ℚ} (h : op.value? vs = some v)
    (ha : op.isAssociative = true) : op.IsMonoidal := by
  rcases Operator.isArithmetic_of_value? h with rfl | rfl | rfl
  · exact .inl rfl
  · exact .inr rfl
  · cases ha

theorem denote_app_append {ρ : String → Role → Option ℚ} {op : Operator} (hop : op.IsMonoidal)
    (ps qs : List Expr) {v : ℚ} : (Expr.app op (ps ++ qs)).denote ρ = some v ↔
      ∃ x y, (Expr.app op ps).denote ρ = some x ∧ (Expr.app op qs).denote ρ = some y ∧
        op.value? [x, y] = some v := by
  have hsplit : ∀ vs, Denote ρ (ps ++ qs) vs ↔
      ∃ xs ys, Denote ρ ps xs ∧ Denote ρ qs ys ∧ vs = xs ++ ys := by
    intro vs
    constructor
    · intro h
      have ht := List.forall₂_take_append vs ps qs h.flip
      have hd := List.forall₂_drop_append vs ps qs h.flip
      exact ⟨_, _, ht.flip, hd.flip, (List.take_append_drop _ _).symm⟩
    · rintro ⟨xs, ys, hxs, hys, rfl⟩
      exact List.rel_append hxs hys
  have hval : ∀ xs ys, op.value? (xs ++ ys) = some v ↔
      ∃ x y, op.value? xs = some x ∧ op.value? ys = some y ∧ op.value? [x, y] = some v := by
    intro xs ys
    rcases hop with rfl | rfl <;> simp [Operator.value?]
  simp only [denote_app, hsplit]
  constructor
  · rintro ⟨_, ⟨xs, ys, hxs, hys, rfl⟩, hv⟩
    obtain ⟨x, y, hx, hy, hxy⟩ := (hval xs ys).1 hv
    exact ⟨x, y, ⟨xs, hxs, hx⟩, ⟨ys, hys, hy⟩, hxy⟩
  · rintro ⟨x, y, ⟨xs, hxs, hx⟩, ⟨ys, hys, hy⟩, hxy⟩
    exact ⟨xs ++ ys, ⟨xs, ys, hxs, hys, rfl⟩, (hval xs ys).2 ⟨x, y, hx, hy, hxy⟩⟩

theorem denote_singleton {ρ : String → Role → Option ℚ} {op : Operator} (hop : op.IsMonoidal)
    {e : Expr} {v : ℚ} : (Expr.app op [e]).denote ρ = some v ↔ e.denote ρ = some v := by
  rw [denote_app]
  constructor
  · rintro ⟨vs, hvs, hv⟩
    cases hvs with
    | cons hx hvs =>
      cases hvs with
      | nil => exact Operator.value?_singleton hv ▸ hx
  · intro h
    refine ⟨[v], .cons h .nil, ?_⟩
    rcases hop with rfl | rfl <;> simp [Operator.value?]

/-- A step keeps the value if the calls that it makes do. -/
theorem combinerSound_combineStep {op : Operator} {reduce : Reducer} {combine : Combiner}
    (hf : ReducerSound σ reduce) (hc : CombinerSound σ op combine) :
    CombinerSound σ op (combineStep reduce combine op) := by
  intro l r e v hv h
  rcases combineStep_eq_some h with ho | ⟨ps, as, p, bs, q, ⟨hassoc, head, rfl, hname⟩, rfl, hq, he⟩
  · exact ho.denote hf hv
  · obtain ⟨x, y, hl, hr, hxy⟩ := denote_pair.1 hv
    have hop := isMonoidal_of_value? hxy hassoc
    obtain ⟨vs, hvs, hx⟩ := denote_app.1 hl
    have hhead : head = op := (Operator.isArithmetic_of_value? hx).isOrdinary _
      (Operator.isArithmetic_of_value? hxy) hname
    subst hhead
    -- `(a + (p + b)) + y` is written as `a + ((p + y) + b)`
    obtain ⟨a, pb, ha, hpb, hapb⟩ := (denote_app_append hop as (p :: bs)).1 hl
    obtain ⟨p', b, hp, hb, hpb'⟩ := (denote_app_append hop [p] bs).1 hpb
    rw [denote_singleton hop] at hp
    obtain ⟨u, hu⟩ : ∃ u, head.value? [p', y] = some u := by
      rcases hop with rfl | rfl <;> exact ⟨_, rfl⟩
    have hqu := hc _ _ _ u (denote_pair.2 ⟨p', y, hp, hr, hu⟩) hq
    obtain ⟨ub, hub⟩ : ∃ ub, head.value? [u, b] = some ub := by
      rcases hop with rfl | rfl <;> exact ⟨_, rfl⟩
    refine hf _ _ _ _ ((denote_app_append hop _ _).2 ⟨a, ub, ha, ?_, ?_⟩) he
    · exact (denote_app_append hop [q] bs).2 ⟨u, b, (denote_singleton hop).2 hqu, hb, hub⟩
    · rcases hop with rfl | rfl
      · simp only [Operator.value?, List.sum_cons, List.sum_nil, add_zero, Option.some.injEq]
          at hxy hapb hpb' hu hub ⊢
        subst hxy hapb hpb' hu hub
        ring
      · simp only [Operator.value?, List.prod_cons, List.prod_nil, mul_one, Option.some.injEq]
          at hxy hapb hpb' hu hub ⊢
        subst hxy hapb hpb' hu hub
        ring

/-! ## Folds -/

mutual

/-- Splicing a nested sum or product in keeps the value. -/
theorem denote_splice {ρ : String → Role → Option ℚ} {op : Operator} (hop : op.IsMonoidal) :
    (e : Expr) → {v : ℚ} → e.denote ρ = some v →
      (Expr.app op (splice op.name e)).denote ρ = some v
  | .num n, v, h => (denote_singleton hop).2 h
  | .sym name role, v, h => (denote_singleton hop).2 h
  | .app head ps, v, h => by
    unfold splice
    split
    · next hname =>
      obtain ⟨vs, hvs, hv⟩ := denote_app.1 h
      have hhead : head = op := (Operator.isArithmetic_of_value? hv).isOrdinary _
        hop.isArithmetic (by simpa using hname)
      subst hhead
      exact denote_flatten hop ps h
    · exact (denote_singleton hop).2 h

theorem denote_flatten {ρ : String → Role → Option ℚ} {op : Operator} (hop : op.IsMonoidal) :
    (ps : List Expr) → {v : ℚ} → (Expr.app op ps).denote ρ = some v →
      (Expr.app op (flatten op.name ps)).denote ρ = some v
  | [], v, h => h
  | p :: ps, v, h => by
    obtain ⟨x, y, hx, hy, hxy⟩ := (denote_app_append hop [p] ps).1 h
    rw [denote_singleton hop] at hx
    exact (denote_app_append hop _ _).2
      ⟨x, y, denote_splice hop p hx, denote_flatten hop ps hy, hxy⟩

end

theorem denote_join {ρ : String → Role → Option ℚ} {op : Operator} {l r : Expr} {v : ℚ}
    (h : (Expr.app op [l, r]).denote ρ = some v) : (join op l r).denote ρ = some v := by
  unfold join
  split
  · next head ps =>
    split
    · next hown =>
      rw [Bool.and_eq_true, beq_iff_eq] at hown
      obtain ⟨x, y, hx, hy, hxy⟩ := denote_pair.1 h
      have hop := isMonoidal_of_value? hxy hown.1
      obtain ⟨vs, hvs, hv⟩ := denote_app.1 hx
      have hhead : head = op := (Operator.isArithmetic_of_value? hv).isOrdinary _
        (Operator.isArithmetic_of_value? hxy) hown.2
      subst hhead
      exact (denote_app_append hop _ _).2 ⟨x, y, hx, (denote_singleton hop).2 hy, hxy⟩
    · exact h
  · exact h

theorem denote_coefficientFirst {ρ : String → Role → Option ℚ} {e : Expr} {v : ℚ}
    (h : e.denote ρ = some v) : (coefficientFirst e).denote ρ = some v := by
  unfold coefficientFirst
  split
  · next op p ps =>
    split
    · next hop =>
      simp only [Bool.and_eq_true, beq_iff_eq, Bool.not_eq_true'] at hop
      obtain ⟨vs, hvs, hv⟩ := denote_app.1 h
      have hop' : op = .multiply := (Operator.isArithmetic_of_value? hv).isOrdinary _
        Operator.isArithmetic_multiply hop.1.1
      subst hop'
      have hperm : (p :: ps).Perm
          (ps.filter Expr.isNumber ++ p :: ps.filter (!·.isNumber)) := by
        refine List.Perm.trans ?_ List.perm_middle.symm
        exact (List.filter_append_perm _ ps).symm.cons p
      obtain ⟨ws, hws, hprod⟩ := List.perm_comp_forall₂ hperm.symm hvs
      refine denote_app.2 ⟨ws, hws, ?_⟩
      rw [← hv, Operator.value?, Operator.value?, hprod.prod_eq]
    · exact h
  · exact h

theorem denote_cons_cons {ρ : String → Role → Option ℚ} {op : Operator} {l r : Expr}
    {rest : List Expr} {v : ℚ} (h : (Expr.app op (l :: r :: rest)).denote ρ = some v) :
    ∃ u, (Expr.app op [l, r]).denote ρ = some u ∧
      ∀ e, e.denote ρ = some u → (Expr.app op (e :: rest)).denote ρ = some v := by
  obtain ⟨vs, hvs, hval⟩ := denote_app.1 h
  cases hvs with
  | cons hl hvs =>
    cases hvs with
    | cons hr hrest =>
      obtain ⟨u, hu, huv⟩ := Operator.value?_cons_cons.1 hval
      exact ⟨u, denote_pair.2 ⟨_, _, hl, hr, hu⟩, fun e he => denote_app.2 ⟨_, .cons he hrest, huv⟩⟩

/-- The fold keeps the value if its steps do. -/
theorem reducerSound_reduceStep {combine : Operator → Combiner}
    (hc : ∀ op, CombinerSound σ op (combine op)) :
    ReducerSound σ fun op ps => reduceStep (combine op) op ps := by
  intro op ps e v hv h
  have hops : (Expr.app op (operands op ps)).denote (byName σ) = some v := by
    unfold operands
    split
    · next hassoc =>
      obtain ⟨vs, -, hval⟩ := denote_app.1 hv
      exact denote_flatten (isMonoidal_of_value? hval hassoc) ps hv
    · exact hv
  rcases reduceStep_eq_ok h with ⟨-, rfl⟩ | ⟨-, heq, rfl⟩ | ⟨p, qs, e', -, heq, hfold, hfin⟩
  · exact hv
  · rw [heq] at hops
    obtain ⟨vs, hvs, hval⟩ := denote_app.1 hops
    cases hvs
    cases op with
    | add => exact hval
    | multiply => exact hval
    | _ => cases hval
  · rw [heq] at hops
    -- the running result and the operands that are left denote the same all along
    have hlast := foldOperands_induction
      (I := fun l rest => (Expr.app op (l :: rest)).denote (byName σ) = some v)
      (fun l r rest x hinv hx => by
        obtain ⟨u, hu, hrest⟩ := denote_cons_cons hinv
        exact hrest x (hc op _ _ _ u hu hx))
      (fun l r rest hinv _ => by
        obtain ⟨u, hu, hrest⟩ := denote_cons_cons hinv
        exact hrest _ (denote_join hu))
      hops hfold
    have he' : e'.denote (byName σ) = some v := by
      obtain ⟨vs, hvs, hval⟩ := denote_app.1 hlast
      cases hvs with
      | cons hx hnil =>
        cases hnil with
        | nil => exact Operator.value?_singleton hval ▸ hx
    rcases finish_eq_ok hfin with ⟨-, -, rfl⟩ | ⟨-, rfl⟩
    · exact denote_coefficientFirst he'
    · exact he'

/-- A simplified application denotes what the application denotes. -/
theorem denote_reduce {op : Operator} {ps : List Expr} {e : Expr} {v : ℚ}
    (hv : (Expr.app op ps).denote (byName σ) = some v) (h : (reduce op ps).value = .ok e) :
    e.denote (byName σ) = some v :=
  (within_induction (R := ReducerSound σ) (C := CombinerSound σ)
    (fun _ _ _ _ _ h => by simp at h) (fun _ _ _ _ _ _ h => by simp at h)
    (fun _ hc => reducerSound_reduceStep hc)
    (fun _ _ _ hf hc => combinerSound_combineStep hf hc) (depthFor op ps)).1 op ps e v hv h

end Simplify

end Reckoner
