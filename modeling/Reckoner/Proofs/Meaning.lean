import Reckoner.Registry
import Reckoner.Proofs.Simplify.Material
import Mathlib.Algebra.BigOperators.Group.List.Basic
import Mathlib.Algebra.Order.Field.Rat
import Mathlib.Algebra.Order.Ring.Int
import Mathlib.Data.Int.Cast.Lemmas
import Mathlib.Data.List.Forall2
import Mathlib.Tactic.NormNum

/-!
# What expressions mean

A sum, product or power of exact numbers means a rational number, once the symbols do. The meaning
is partial: a power is defined for whole exponents alone, and not for a negative power of zero, and
an application is undefined where one of its parameters is. Doubles have no meaning.

Under the registries a stored variable means what the value bound to it means.
-/

namespace Reckoner

/-- A power with a whole exponent, where it is defined; `0 ^ 0` is one. -/
def rationalPower? (b e : ℚ) : Option ℚ :=
  if e.den = 1 ∧ (b ≠ 0 ∨ 0 ≤ e) then some (b ^ e.num) else none

/-- The value of an arithmetic operator at the values of its parameters. -/
def Operator.value? : Operator → List ℚ → Option ℚ
  | .add, vs => some vs.sum
  | .multiply, vs => some vs.prod
  | .power, b :: es => es.foldlM rationalPower? b
  | _, _ => none

namespace Expr

mutual

/-- The rational number that an expression denotes, if it denotes one; `ρ` gives the symbols. -/
def denote (ρ : String → Role → Option ℚ) : Expr → Option ℚ
  | .num n => n.toRat?
  | .sym name role => ρ name role
  | .app op ps => (denoteList ρ ps).bind op.value?

/-- The rational numbers that expressions denote, if all of them denote one. -/
def denoteList (ρ : String → Role → Option ℚ) : List Expr → Option (List ℚ)
  | [] => some []
  | p :: ps => (denote ρ p).bind fun v => (denoteList ρ ps).map (v :: ·)

end

/-- Symbols by name alone. -/
def byName (σ : String → ℚ) : String → Role → Option ℚ := fun name _ => some (σ name)

end Expr

/-- Symbols under the registries: a stored variable is what the value bound to it denotes, and
anything else goes by its name. -/
def Stores.valuation (s : Stores) (σ : String → ℚ) : String → Role → Option ℚ
  | name, .stored id =>
    match (s.registry id).bindings.get? name with
    | some e => e.denote (Expr.byName σ)
    | none => some (σ name)
  | name, _ => some (σ name)

/-- The meaning of an expression under the registries. -/
def Expr.meaning (s : Stores) (σ : String → ℚ) (e : Expr) : Option ℚ := e.denote (s.valuation σ)

/-- Everything but stored variables. -/
def Material.resolved : Material where
  number _ := True
  symbol _ role := ∀ id, role ≠ .stored id
  operator _ := True

/-- Everything but doubles. -/
def Material.exact : Material where
  number n := n.toRat?.isSome
  symbol _ _ := True
  operator _ := True

/-- No variable of the expression is looked up when it is evaluated. -/
def Expr.IsResolved (e : Expr) : Prop := e.MadeOf .resolved

/-- No number of the expression is a double. -/
def Expr.IsExact (e : Expr) : Prop := e.MadeOf .exact

instance (e : Expr) : Decidable e.IsExact :=
  have (n : Number) : Decidable (Material.exact.number n) :=
    inferInstanceAs (Decidable (n.toRat?.isSome = true))
  have (name : String) (role : Role) : Decidable (Material.exact.symbol name role) :=
    .isTrue trivial
  have (op : Operator) : Decidable (Material.exact.operator op) := .isTrue trivial
  Expr.decidableMadeOf e

/-! ## Powers -/

/-- A power means something for whole exponents, other than a negative power of zero. -/
theorem rationalPower?_eq_some {b e v : ℚ} :
    rationalPower? b e = some v ↔ ∃ n : ℤ, e = n ∧ (b ≠ 0 ∨ 0 ≤ n) ∧ v = b ^ n := by
  unfold rationalPower?
  constructor
  · intro h
    split at h
    · next hc =>
      have hn : e = (e.num : ℚ) := Rat.ext rfl (by simpa using hc.1)
      refine ⟨e.num, hn, ?_, (Option.some.inj h).symm⟩
      rcases hc.2 with hb | he
      · exact .inl hb
      · exact .inr (Rat.num_nonneg.2 he)
    · cases h
  · rintro ⟨n, rfl, hb, rfl⟩
    rw [if_pos ⟨by simp, by exact_mod_cast hb⟩]
    simp

/-- Powers of one base are multiplied by adding their exponents, where both are defined. -/
theorem rationalPower?_add {b m n x y : ℚ} (hx : rationalPower? b m = some x)
    (hy : rationalPower? b n = some y) : rationalPower? b (m + n) = some (x * y) := by
  obtain ⟨i, rfl, hi, rfl⟩ := rationalPower?_eq_some.1 hx
  obtain ⟨j, rfl, hj, rfl⟩ := rationalPower?_eq_some.1 hy
  refine rationalPower?_eq_some.2 ⟨i + j, by push_cast; rfl, ?_, ?_⟩
  · by_cases hb : b = 0
    · have hi' := hi.resolve_left (not_not.2 hb)
      have hj' := hj.resolve_left (not_not.2 hb)
      exact .inr (by omega)
    · exact .inl hb
  · by_cases hb : b = 0
    · lift i to ℕ using hi.resolve_left (not_not.2 hb)
      lift j to ℕ using hj.resolve_left (not_not.2 hb)
      rw [← Int.natCast_add, zpow_natCast, zpow_natCast, zpow_natCast, pow_add]
    · exact (zpow_add₀ hb i j).symm

/-- A power of a power multiplies the exponents, where both are defined. -/
theorem rationalPower?_mul {b m n x y : ℚ} (hx : rationalPower? b m = some x)
    (hy : rationalPower? x n = some y) : rationalPower? b (m * n) = some y := by
  obtain ⟨i, rfl, hi, rfl⟩ := rationalPower?_eq_some.1 hx
  obtain ⟨j, rfl, hj, rfl⟩ := rationalPower?_eq_some.1 hy
  refine rationalPower?_eq_some.2 ⟨i * j, by push_cast; rfl, ?_, (zpow_mul b i j).symm⟩
  by_cases hb : b = 0
  · have hi' := hi.resolve_left (not_not.2 hb)
    rcases hi'.eq_or_lt with rfl | hpos
    · exact .inr (by simp)
    · refine .inr (mul_nonneg hi' (hj.resolve_left (not_not.2 ?_)))
      rw [hb, zero_zpow i (by omega)]
  · exact .inl hb

/-! ## Numbers -/

namespace Number

@[simp] theorem toRat?_integer (n : ℤ) : (integer n).toRat? = some (n : ℚ) := rfl

@[simp] theorem toRat?_fraction (q : ℚ) : (fraction q).toRat? = some q := rfl

@[simp] theorem toRat?_unit : unit.toRat? = some 1 := rfl

theorem toRat?_plain (a : Number) : a.plain.toRat? = a.toRat? := by cases a <;> rfl

theorem toRat?_eq_of_same {a b : Number} {p q : ℚ} (h : a.same b = true) (ha : a.toRat? = some p)
    (hb : b.toRat? = some q) : p = q := by
  rw [← toRat?_plain] at ha hb
  unfold same at h
  split at h
  · next hm hn => simp_all [toRat?]
  · next hm hn => simp [hm, toRat?] at ha
  · next hm hn => simp_all [toRat?]
  · cases h

theorem toRat?_of_isZero {a : Number} (h : a.isZero = true) : a.toRat? = some 0 := by
  cases a with
  | integer n => simpa [isZero, toRat?] using h
  | fraction q => simpa [isZero, toRat?] using h
  | double x => cases h
  | unit => cases h

theorem toRat?_of_isOne {a : Number} (h : a.isOne = true) : a.toRat? = some 1 := by
  cases a with
  | integer n => simpa [isOne, toRat?] using h
  | fraction q =>
    simp only [isOne, Bool.and_eq_true, beq_iff_eq] at h
    exact congrArg some (Rat.ext h.1 h.2)
  | double x => cases h
  | unit => rfl

theorem isZero_of_toRat? {a : Number} (h : a.toRat? = some 0) : a.isZero = true := by
  cases a with
  | integer n => simpa [isZero, toRat?] using h
  | fraction q => simpa [isZero, toRat?] using h
  | double x => cases h
  | unit => simp [toRat?] at h

/-- The power that is computed is the power of the rational numbers. -/
theorem exactPower_eq_zpow (b : ℚ) (e : ℤ) : exactPower b e = b ^ e := by
  have hpow : ∀ k : ℕ, ((b.num : ℚ) ^ k / (b.den : ℚ) ^ k) = b ^ k := fun k => by
    rw [← div_pow, Rat.num_div_den]
  unfold exactPower
  simp only [intPower_eq, show ∀ (x : ℤ) (k : ℕ), Int.pow x k = x ^ k from fun _ _ => rfl,
    Rat.divInt_eq_div]
  split
  · next h =>
    lift e to ℕ using h
    push_cast
    rw [Int.toNat_natCast, zpow_natCast, hpow]
  · next h =>
    obtain ⟨k, rfl⟩ : ∃ k : ℕ, e = -k := ⟨e.natAbs, by omega⟩
    push_cast
    rw [neg_neg, Int.toNat_natCast, zpow_neg, zpow_natCast, ← hpow, inv_div]

theorem toRat?_of_exactPower? {b : ℚ} {e : ℤ} {c : Number} (h : exactPower? b e = some c) :
    c.toRat? = some (b ^ e) := by
  unfold exactPower? at h
  split at h
  · cases h
  split at h
  · cases h
  · rw [← Option.some.inj h, toRat?_ofRat, exactPower_eq_zpow]

/-- Bringing two numbers to one kind changes neither value. -/
theorem toRat?_of_promote? {a b c d : Number} {p q : ℚ} (h : a.promote? b = some (c, d))
    (ha : a.toRat? = some p) (hb : b.toRat? = some q) : c.toRat? = some p ∧ d.toRat? = some q := by
  simp only [promote?, ha, hb, Option.some.injEq, Prod.mk.injEq] at h
  obtain ⟨rfl, rfl⟩ := h
  exact ⟨rfl, rfl⟩

/-- A sum that is computed has the sum of the values. -/
theorem toRat?_of_addAlike? {a b c : Number} {p q : ℚ} (h : a.addAlike? b = some c)
    (ha : a.toRat? = some p) (hb : b.toRat? = some q) : c.toRat? = some (p + q) := by
  cases a <;> cases b <;> cases ha <;> cases hb <;> cases h <;> simp [toRat?_ofRat]
  norm_num

/-- A product that is computed has the product of the values. -/
theorem toRat?_of_mulAlike? {a b c : Number} {p q : ℚ} (h : a.mulAlike? b = some c)
    (ha : a.toRat? = some p) (hb : b.toRat? = some q) : c.toRat? = some (p * q) := by
  cases a <;> cases b <;> cases ha <;> cases hb <;> cases h <;> simp [toRat?_ofRat]

/-- A power that is computed has the power of the value. -/
theorem toRat?_of_powAlike {a b c : Number} {p : ℚ} {n : ℤ} (h : a.powAlike b = .ok (some c))
    (ha : a.toRat? = some p) (hb : b.toRat? = some (n : ℚ)) : c.toRat? = some (p ^ n) := by
  rw [← toRat?_plain] at ha hb
  unfold powAlike at h
  split at h
  · next i j hi hj =>
    rw [hi] at ha
    rw [hj] at hb
    simp only [toRat?, Option.some.injEq, Int.cast_inj] at ha hb
    simp only [Except.ok.injEq] at h
    rw [← ha, ← hb, toRat?_of_exactPower? h]
  · next x y hx hy =>
    rw [hx] at ha
    cases ha
  · next x y hx hy =>
    rw [hx] at ha
    rw [hy] at hb
    simp only [toRat?, Option.some.injEq] at ha hb
    subst ha hb
    simp only [Rat.den_intCast, if_true, Rat.num_intCast, Except.ok.injEq] at h
    exact toRat?_of_exactPower? h
  · cases h

theorem isSome_toRat?_of_powAlike {a b c : Number} (h : a.powAlike b = .ok (some c))
    (ha : a.toRat?.isSome = true) (hb : b.toRat?.isSome = true) : c.toRat?.isSome = true := by
  obtain ⟨p, hp⟩ := Option.isSome_iff_exists.1 ha
  obtain ⟨q, hq⟩ := Option.isSome_iff_exists.1 hb
  -- two fractions give a power only if the exponent is whole, and doubles have no exact value
  have hwhole : q.den = 1 := by
    rw [← toRat?_plain] at hp hq
    unfold powAlike at h
    split at h
    · next i j hi hj =>
      rw [hj] at hq
      simp only [toRat?, Option.some.injEq] at hq
      rw [← hq]
      rfl
    · next x y hx hy =>
      rw [hx] at hp
      cases hp
    · next x y hx hy =>
      rw [hy] at hq
      simp only [toRat?, Option.some.injEq] at hq
      subst hq
      by_contra hden
      simp [hden] at h
    · cases h
  have hnum : b.toRat? = some (q.num : ℚ) := by rw [hq, Rat.coe_int_num_of_den_eq_one hwhole]
  rw [toRat?_of_powAlike h hp hnum]
  rfl

end Number

/-- What an operator computes of exact numbers is exact. -/
theorem Operator.isSome_toRat?_of_compute? {op : Operator} {a b c : Number}
    (h : op.compute? a b = some c) (ha : a.toRat?.isSome = true) (hb : b.toRat?.isSome = true) :
    c.toRat?.isSome = true := by
  obtain ⟨p, hp⟩ := Option.isSome_iff_exists.1 ha
  obtain ⟨q, hq⟩ := Option.isSome_iff_exists.1 hb
  cases op with
  | add =>
    rw [Number.toRat?_of_addAlike? h hp hq]
    rfl
  | multiply =>
    rw [Number.toRat?_of_mulAlike? h hp hq]
    rfl
  | power =>
    simp only [Operator.compute?] at h
    split at h
    · next o ho => exact Number.isSome_toRat?_of_powAlike (h ▸ ho) ha hb
    · cases h
  | define _ => cases h
  | extension _ => cases h

/-- A material whose numbers are the exact ones needs only the operators. -/
theorem Material.closed_of_exact {M : Material}
    (hnumber : ∀ n, M.number n ↔ n.toRat?.isSome = true)
    (harithmetic : ∀ op : Operator, op.IsArithmetic → M.operator op) : M.Closed where
  unit := (hnumber _).2 rfl
  integer _ := (hnumber _).2 rfl
  compute ha hb h :=
    (hnumber _).2 (Operator.isSome_toRat?_of_compute? h ((hnumber _).1 ha) ((hnumber _).1 hb))
  promote ha hb h := by
    obtain ⟨p, hp⟩ := Option.isSome_iff_exists.1 ((hnumber _).1 ha)
    obtain ⟨q, hq⟩ := Option.isSome_iff_exists.1 ((hnumber _).1 hb)
    obtain ⟨hc, hd⟩ := Number.toRat?_of_promote? h hp hq
    exact ⟨(hnumber _).2 (Option.isSome_iff_exists.2 ⟨p, hc⟩),
      (hnumber _).2 (Option.isSome_iff_exists.2 ⟨q, hd⟩)⟩
  add := harithmetic _ Operator.isArithmetic_add
  multiply := harithmetic _ Operator.isArithmetic_multiply
  power := harithmetic _ Operator.isArithmetic_power

/-- Simplification makes no double out of exact numbers. -/
theorem Material.closed_exact : Material.exact.Closed :=
  closed_of_exact (fun _ => Iff.rfl) fun _ _ => trivial

/-- What an operator computes from exact numbers has the value of the operator. -/
theorem Operator.toRat?_of_compute? {op : Operator} {a b c : Number} {p q v : ℚ}
    (h : op.compute? a b = some c) (ha : a.toRat? = some p) (hb : b.toRat? = some q)
    (hv : op.value? [p, q] = some v) : c.toRat? = some v := by
  cases op with
  | add =>
    have hv' : v = p + q := by simpa [Operator.value?] using hv.symm
    exact hv' ▸ Number.toRat?_of_addAlike? h ha hb
  | multiply =>
    have hv' : v = p * q := by simpa [Operator.value?] using hv.symm
    exact hv' ▸ Number.toRat?_of_mulAlike? h ha hb
  | power =>
    have hv' : rationalPower? p q = some v := by simpa [Operator.value?] using hv
    obtain ⟨n, rfl, -, rfl⟩ := rationalPower?_eq_some.1 hv'
    simp only [Operator.compute?] at h
    split at h
    · next o ho => exact Number.toRat?_of_powAlike (h ▸ ho) ha hb
    · cases h
  | define _ => cases hv
  | extension _ => cases hv

/-! ## Expressions -/

namespace Operator

/-- Only sums, products and powers have a value. -/
theorem isArithmetic_of_value? {op : Operator} {vs : List ℚ} {v : ℚ} (h : op.value? vs = some v) :
    op.IsArithmetic := by
  cases op with
  | add => exact isArithmetic_add
  | multiply => exact isArithmetic_multiply
  | power => exact isArithmetic_power
  | define _ => cases h
  | extension _ => cases h

/-- Two neighbouring parameters can be replaced by what they make together. -/
theorem value?_cons_cons {op : Operator} {x y v : ℚ} {vs : List ℚ} :
    op.value? (x :: y :: vs) = some v ↔
      ∃ u, op.value? [x, y] = some u ∧ op.value? (u :: vs) = some v := by
  cases op with
  | add => simp [value?, add_assoc]
  | multiply => simp [value?, mul_assoc]
  | power =>
    simp only [value?, List.foldlM_cons, List.foldlM_nil]
    cases rationalPower? x y <;> simp
  | define _ => simp [value?]
  | extension _ => simp [value?]

theorem value?_singleton {op : Operator} {x v : ℚ} (h : op.value? [x] = some v) : v = x := by
  rcases isArithmetic_of_value? h with rfl | rfl | rfl <;> simpa [value?, eq_comm] using h

end Operator

namespace Expr

variable {ρ : String → Role → Option ℚ}

/-- Expressions have the given values, one each. -/
def Denote (ρ : String → Role → Option ℚ) : List Expr → List ℚ → Prop :=
  List.Forall₂ fun p v => p.denote ρ = some v

theorem denoteList_eq_some {ps : List Expr} {vs : List ℚ} :
    denoteList ρ ps = some vs ↔ Denote ρ ps vs := by
  induction ps generalizing vs with
  | nil => simp [denoteList, Denote, eq_comm]
  | cons p ps ih =>
    simp only [denoteList, Option.bind_eq_some_iff, Option.map_eq_some_iff, ih, Denote,
      List.forall₂_cons_left_iff]
    constructor
    · rintro ⟨v, hv, ws, hws, rfl⟩
      exact ⟨v, ws, hv, hws, rfl⟩
    · rintro ⟨v, ws, hv, hws, rfl⟩
      exact ⟨v, hv, ws, hws, rfl⟩

@[simp] theorem denote_num {n : Number} : (Expr.num n).denote ρ = n.toRat? := by simp [denote]

@[simp] theorem denote_sym {name : String} {role : Role} :
    (Expr.sym name role).denote ρ = ρ name role := by simp [denote]

/-- An application means what its operator makes of the meanings of its parameters. -/
theorem denote_app {op : Operator} {ps : List Expr} {v : ℚ} :
    (Expr.app op ps).denote ρ = some v ↔ ∃ vs, Denote ρ ps vs ∧ op.value? vs = some v := by
  simp only [denote, Option.bind_eq_some_iff, denoteList_eq_some]

theorem denote_pair {op : Operator} {l r : Expr} {v : ℚ} :
    (Expr.app op [l, r]).denote ρ = some v ↔
      ∃ x y, l.denote ρ = some x ∧ r.denote ρ = some y ∧ op.value? [x, y] = some v := by
  rw [denote_app]
  constructor
  · rintro ⟨vs, hvs, hv⟩
    cases hvs with
    | cons hx hvs =>
      cases hvs with
      | cons hy hvs =>
        cases hvs with
        | nil => exact ⟨_, _, hx, hy, hv⟩
  · rintro ⟨x, y, hx, hy, hv⟩
    exact ⟨[x, y], .cons hx (.cons hy .nil), hv⟩

theorem Denote.exists {ps : List Expr} {vs : List ℚ} (h : Denote ρ ps vs) :
    ∀ p ∈ ps, ∃ v, p.denote ρ = some v := by
  induction h with
  | nil => simp
  | cons hv _ ih => exact List.forall_mem_cons.2 ⟨⟨_, hv⟩, ih⟩

/-- Only the symbols that occur matter for the meaning. -/
theorem denote_congr {M : Material} {ρ' : String → Role → Option ℚ}
    (hρ : ∀ name role, M.symbol name role → ρ name role = ρ' name role) {e : Expr}
    (h : e.MadeOf M) : e.denote ρ = e.denote ρ' := by
  induction e using Expr.induction with
  | num n => rw [denote_num, denote_num]
  | sym name role =>
    rw [denote_sym, denote_sym]
    exact hρ name role (madeOf_sym.1 h)
  | app op ps ih =>
    have hps : denoteList ρ ps = denoteList ρ' ps := by
      have hall := (madeOf_app.1 h).2
      clear h
      induction ps with
      | nil => rfl
      | cons p ps ihps =>
        rw [denoteList, denoteList, ih p (by simp) (hall p (by simp)),
          ihps (fun q hq => ih q (by simp [hq])) fun q hq => hall q (by simp [hq])]
    rw [denote, denote, hps]

/-- An expression with a value has no double in it. -/
theorem isExact_of_denote {e : Expr} {v : ℚ} (h : e.denote ρ = some v) : e.IsExact := by
  induction e using Expr.induction generalizing v with
  | num n =>
    rw [denote_num] at h
    simp [IsExact, Material.exact, h]
  | sym name role => simp [IsExact, Material.exact]
  | app op ps ih =>
    obtain ⟨vs, hvs, -⟩ := denote_app.1 h
    refine madeOf_app.2 ⟨trivial, fun p hp => ?_⟩
    obtain ⟨w, hw⟩ := hvs.exists p hp
    exact ih p hp hw

end Expr

end Reckoner
