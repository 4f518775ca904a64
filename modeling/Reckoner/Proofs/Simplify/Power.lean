import Reckoner.Proofs.Number.Nearest
import Reckoner.Proofs.Number.Power
import Reckoner.Proofs.Simplify.Collect

/-!
# Powers of exact numbers

Two numbers of one kind go straight to exact arithmetic: the power is exact whenever it is given at
all, and it is given up to a size. Only numbers of different kinds meet the rules `x ^ 0 = 1`,
`x ^ 1 = x`, `1 ^ x = 1` and `0 ^ n = 0`, the last of which compares doubles. These identities hold
for numbers of one kind as far as the arithmetic happens to give them, and for a zero base as far as
the exponent has a double that is not zero.
-/

namespace Reckoner.Simplify

open Number Logged

variable {b e : Number} {p q : ℚ}

/-! ## Numbers of one kind -/

/-- A power has nothing to regroup. -/
theorem value_combine_power (l r : Expr) :
    (combine .power l r).value = (combineAlone Simplify.reduce .power l r).value :=
  value_combine_of_flat fun h => absurd h Bool.false_ne_true

theorem value_combine_power_alike (hkind : b.sameKind e = true) :
    (combine .power (.num b) (.num e)).value = (combineNumbers .power b e).value := by
  rw [value_combine_power]
  simp only [combineAlone, hkind, if_true]

theorem value_combine_power_whole {n : ℤ} (hkind : b.sameKind e = true) (hb : b.toRat? = some p)
    (he : e.toRat? = some (n : ℚ)) :
    (combine .power (.num b) (.num e)).value = .ok ((exactPower? p n).map .num) := by
  rw [value_combine_power_alike hkind, value_combineNumbers, Operator.compute?,
    powAlike_eq hkind hb he]

theorem value_combine_power_not_whole (hkind : b.sameKind e = true) (hb : b.toRat? = some p)
    (he : e.toRat? = some q) (hden : q.den ≠ 1) :
    (combine .power (.num b) (.num e)).value = .ok none := by
  rw [value_combine_power_alike hkind, value_combineNumbers, Operator.compute?,
    powAlike_of_den_ne_one hkind hb he hden]
  rfl

/-- What the power of a number with a whole exponent becomes: the exact power, except where there is
none or it has too many bits, and always where the estimate of its size is within the limit. -/
structure IsExactPower (p : ℚ) (n : ℤ) (o : Option Expr) : Prop where
  undefined : p = 0 → n < 0 → o = none
  bounded : ¬ HasExactBits (p ^ n) → o = none
  exact : ∀ r, o = some r → (∃ m : ℤ, p ^ n = m ∧ r = .int m) ∨
    (2 ≤ (p ^ n).den ∧ r = .num (.fraction (p ^ n)))
  given : p ≠ 0 ∨ 0 ≤ n → n.natAbs * bitLength p.num.natAbs ≤ maxExactBits →
    n.natAbs * bitLength p.den ≤ maxExactBits → ∃ r, o = some r

theorem literal_ofRat (v : ℚ) :
    (∃ m : ℤ, v = m ∧ Expr.num (ofRat v) = .int m) ∨
      (2 ≤ v.den ∧ Expr.num (ofRat v) = .num (.fraction v)) := by
  unfold ofRat
  split
  · next hden => exact .inl ⟨v.num, (Rat.coe_int_num_of_den_eq_one hden).symm, rfl⟩
  · next hden =>
    have hpos := v.den_pos
    exact .inr ⟨by omega, rfl⟩

theorem isExactPower_exactPower? (p : ℚ) (n : ℤ) :
    IsExactPower p n ((exactPower? p n).map .num) := by
  rw [exactPower?_eq]
  by_cases hcond : (p ≠ 0 ∨ 0 ≤ n) ∧ powerTooLarge p.num.natAbs n = false ∧
      powerTooLarge p.den n = false
  · rw [if_pos hcond]
    obtain ⟨hdef, hnum, hden⟩ := hcond
    refine ⟨fun hp hn => ?_, fun hbits => ?_, fun r hr => ?_, fun _ _ _ => ⟨_, rfl⟩⟩
    · rcases hdef with hp' | hn'
      · exact absurd hp hp'
      · omega
    · exact absurd (hasExactBits_zpow hdef hnum hden) hbits
    · rw [← Option.some.inj hr]
      exact literal_ofRat (p ^ n)
  · rw [if_neg hcond]
    refine ⟨fun _ _ => rfl, fun _ => rfl, fun r hr => (nomatch hr), fun hdef hnum hden => ?_⟩
    exact absurd ⟨hdef, powerTooLarge_eq_false_iff.2 (.inr hnum),
      powerTooLarge_eq_false_iff.2 (.inr hden)⟩ hcond

/-- A power of two integers, or of two ratios with a whole exponent, never fails; it is exact, it is
in lowest terms, and it is bounded. -/
theorem combine_power_exact {n : ℤ} (hkind : b.sameKind e = true) (hb : b.toRat? = some p)
    (he : e.toRat? = some (n : ℚ)) :
    ∃ o, (combine .power (.num b) (.num e)).value = .ok o ∧ IsExactPower p n o :=
  ⟨_, value_combine_power_whole hkind hb he, isExactPower_exactPower? p n⟩

/-- The estimate for `(-3) ^ (-5000)` reaches the limit. -/
theorem combine_power_exact_limit :
    ∃ o, (combine .power (.int (-3)) (.int (-5000))).value = .ok o ∧
      IsExactPower (-3) (-5000) o ∧ ∃ r, o = some r := by
  obtain ⟨o, ho, h⟩ := combine_power_exact (b := .integer (-3)) (e := .integer (-5000))
    (p := -3) (n := -5000) rfl rfl rfl
  exact ⟨o, ho, h, h.given (.inl (by decide)) (by decide) (by decide)⟩

/-! ## Numbers of different kinds -/

theorem isZero_iff (h : b.toRat? = some p) : b.isZero = true ↔ p = 0 := by
  constructor
  · intro hz
    exact Option.some.inj (h.symm.trans (toRat?_of_isZero hz))
  · rintro rfl
    exact isZero_of_toRat? h

theorem isOne_iff (h : b.toRat? = some p) : b.isOne = true ↔ p = 1 := by
  constructor
  · intro hone
    exact Option.some.inj (h.symm.trans (toRat?_of_isOne hone))
  · rintro rfl
    cases b with
    | integer n => simpa [isOne, toRat?] using h
    | fraction q =>
      cases h
      rfl
    | double x => cases h
    | unit => rfl

theorem isZero_eq_false_iff (h : b.toRat? = some p) : b.isZero = false ↔ p ≠ 0 := by
  rw [Ne, ← isZero_iff h, Bool.not_eq_true]

theorem isOne_eq_false_iff (h : b.toRat? = some p) : b.isOne = false ↔ p ≠ 1 := by
  rw [Ne, ← isOne_iff h, Bool.not_eq_true]

/-- A promoted power has an answer for a whole exponent alone. -/
theorem value_combinePromoted_power (hb : b.toRat? = some p) (he : e.toRat? = some q) :
    (combinePromoted .power b e).value =
      .ok ((if q.den = 1 then exactPower? p q.num else none).map .num) := by
  have hpair : b.promote? e = some (.fraction p, .fraction q) := by rw [promote?, hb, he]
  unfold combinePromoted
  rw [hpair, value_bind]
  show (combineNumbers .power (.fraction p) (.fraction q)).value = _
  rw [value_combineNumbers]
  rfl

theorem value_zeroToPower (hb : b.toRat? = some 0) (he : e.toRat? = some q) :
    (zeroToPower b e).value =
      if 2 ^ 1024 - 2 ^ 970 ≤ |q| then .error .beyondDouble
      else if 1 / 2 ^ 1075 < q then .ok (some (.num .zero))
      else .ok ((if q.den = 1 then exactPower? 0 q.num else none).map .num) := by
  unfold zeroToPower
  rw [value_bind]
  cases hx : e.toFloat? with
  | none =>
    rw [if_pos ((toFloat?_eq_none_iff he).1 hx)]
    rfl
  | some x =>
    have hrange : ¬ 2 ^ 1024 - 2 ^ 970 ≤ |q| := fun h => by
      rw [(toFloat?_eq_none_iff he).2 h] at hx
      cases hx
    rw [if_neg hrange]
    show (if 0 < x then pure (some (.num .zero))
      else combinePromoted .power b e : Logged _).value = _
    by_cases hpos : 0 < x
    · rw [if_pos hpos, if_pos ((zero_lt_of_toFloat? he hx).1 hpos)]
      rfl
    · rw [if_neg hpos, if_neg (mt (zero_lt_of_toFloat? he hx).2 hpos),
        value_combinePromoted_power hb he]

/-- The rules of a power, for exact numbers of different kinds. -/
theorem value_combine_power_mixed (hkind : b.sameKind e = false) (hb : b.toRat? = some p)
    (he : e.toRat? = some q) :
    (combine .power (.num b) (.num e)).value =
      if q = 0 then .ok (some (.num .unit))
      else if q = 1 then .ok (some (.num b))
      else if p = 1 then .ok (some (.num .unit))
      else if p = 0 then (zeroToPower b e).value
      else .ok ((if q.den = 1 then exactPower? p q.num else none).map .num) := by
  have hpower : (combine .power (.num b) (.num e)).value =
      (combinePower Simplify.reduce (.num b) (.num e)).value := by
    rw [value_combine_power]
    simp only [combineAlone, hkind, Bool.false_eq_true, if_false]
    rfl
  rw [hpower]
  unfold combinePower
  simp only [Expr.isZero, Expr.isOne, isZero_iff hb, isZero_iff he, isOne_iff hb, isOne_iff he]
  split_ifs
  · rfl
  · rfl
  · rfl
  · rfl
  · next hden => rw [value_combinePromoted_power hb he, if_pos hden]
  · next hden => rw [value_combinePromoted_power hb he, if_neg hden]

/-! ## Identities -/

/-- The result is a number of the given value. -/
def IsLiteral (o : Except SimplifyError (Option Expr)) (v : ℚ) : Prop :=
  ∃ c : Number, o = .ok (some (.num c)) ∧ c.toRat? = some v

/-- What the identities of a power say of the result, for the values of base and exponent. -/
structure PowerIdentities (p q : ℚ) (o : Except SimplifyError (Option Expr)) : Prop where
  returns : ∃ r, o = .ok r
  zeroExponent : q = 0 → IsLiteral o 1
  oneExponent : q = 1 → IsLiteral o p
  oneBase : p = 1 → IsLiteral o 1
  zeroBase : p = 0 → 0 < q → IsLiteral o 0

/-- The pairs of which the result is not what an identity says. -/
inductive PowerGap (b e : Number) (p q : ℚ) : Prop where
  /-- A number to the power one, if it has more bits than a result may have. -/
  | large (hkind : b.sameKind e = true) (hq : q = 1) (hp : ¬ HasExactBits p)
  /-- Ratios: a root of one. -/
  | rootOfOne (hkind : b.sameKind e = true) (hq : q.den ≠ 1) (hp : p = 1)
  /-- Ratios: a root of zero. -/
  | rootOfZero (hkind : b.sameKind e = true) (hq : q.den ≠ 1) (hpos : 0 < q) (hp : p = 0)
  /-- Zero to a power that has no finite double. -/
  | overflow (hkind : b.sameKind e = false) (hq : 2 ^ 1024 - 2 ^ 970 ≤ |q|) (hp : p = 0)
  /-- Zero to a positive power of which the double is zero. -/
  | underflow (hkind : b.sameKind e = false) (hpos : 0 < q) (hq : q ≤ 1 / 2 ^ 1075) (hp : p = 0)

theorem isLiteral_ofRat (v : ℚ) : IsLiteral (.ok ((some (ofRat v)).map .num)) v :=
  ⟨ofRat v, rfl, toRat?_ofRat v⟩

theorem not_isLiteral_none {v : ℚ} : ¬ IsLiteral (.ok none) v := by
  rintro ⟨c, hc, -⟩
  cases hc

theorem powerIdentities_of_isLiteral {o : Except SimplifyError (Option Expr)} {v : ℚ}
    (h : IsLiteral o v) : PowerIdentities p q o ↔
      (q = 0 → v = 1) ∧ (q = 1 → v = p) ∧ (p = 1 → v = 1) ∧ (p = 0 → 0 < q → v = 0) := by
  have hval : ∀ w, IsLiteral o w ↔ v = w := by
    refine fun w => ⟨fun hw => ?_, fun hw => hw ▸ h⟩
    obtain ⟨c, rfl, hc⟩ := h
    obtain ⟨d, hd, hw⟩ := hw
    cases hd
    exact Option.some.inj (hc.symm.trans hw)
  obtain ⟨c, hc, -⟩ := id h
  constructor
  · intro hi
    exact ⟨fun hq => (hval 1).1 (hi.zeroExponent hq), fun hq => (hval p).1 (hi.oneExponent hq),
      fun hp => (hval 1).1 (hi.oneBase hp), fun hp hq => (hval 0).1 (hi.zeroBase hp hq)⟩
  · rintro ⟨h0, h1, hp, hz⟩
    exact ⟨⟨_, hc⟩, fun hq => (hval 1).2 (h0 hq), fun hq => (hval p).2 (h1 hq),
      fun h' => (hval 1).2 (hp h'), fun h' hq => (hval 0).2 (hz h' hq)⟩

theorem powerIdentities_whole {n : ℤ} :
    PowerIdentities p n (.ok ((exactPower? p n).map .num)) ↔ (n = 1 → HasExactBits p) := by
  constructor
  · rintro h rfl
    by_contra hbits
    have hone := h.oneExponent Int.cast_one
    rw [exactPower?_one, if_neg hbits] at hone
    exact not_isLiteral_none hone
  · intro h
    refine ⟨⟨_, rfl⟩, fun hn => ?_, fun hn => ?_, fun hp => ?_, fun hp hpos => ?_⟩
    · rw [Int.cast_eq_zero.1 hn, exactPower?_zero]
      exact isLiteral_ofRat 1
    · have hone : n = 1 := Int.cast_eq_one.1 hn
      rw [hone, exactPower?_one, if_pos (h hone)]
      exact isLiteral_ofRat p
    · rw [hp, exactPower?_one_base]
      exact isLiteral_ofRat 1
    · rw [hp, exactPower?_zero_base (Int.cast_pos.1 hpos)]
      exact isLiteral_ofRat 0

theorem powerIdentities_not_whole (hden : q.den ≠ 1) :
    PowerIdentities p q (.ok none) ↔ p ≠ 1 ∧ ¬ (p = 0 ∧ 0 < q) := by
  constructor
  · intro h
    exact ⟨fun hp => not_isLiteral_none (h.oneBase hp),
      fun hzero => not_isLiteral_none (h.zeroBase hzero.1 hzero.2)⟩
  · rintro ⟨hp, hzero⟩
    refine ⟨⟨_, rfl⟩, fun hq => ?_, fun hq => ?_, fun hone => absurd hone hp,
      fun hp0 hpos => absurd ⟨hp0, hpos⟩ hzero⟩
    · exact absurd (by rw [hq]; rfl) hden
    · exact absurd (by rw [hq]; rfl) hden

/-- Numbers of one kind satisfy the identities as far as exact arithmetic computes them. -/
theorem powerIdentities_alike (hkind : b.sameKind e = true) (hb : b.toRat? = some p)
    (he : e.toRat? = some q) :
    PowerIdentities p q (combine .power (.num b) (.num e)).value ↔
      (q = 1 → HasExactBits p) ∧ (q.den ≠ 1 → p ≠ 1 ∧ ¬ (p = 0 ∧ 0 < q)) := by
  by_cases hden : q.den = 1
  · obtain ⟨n, rfl⟩ : ∃ n : ℤ, q = n := ⟨q.num, (Rat.coe_int_num_of_den_eq_one hden).symm⟩
    rw [value_combine_power_whole hkind hb he, powerIdentities_whole, Int.cast_eq_one]
    exact ⟨fun h => ⟨h, fun hne => absurd hden hne⟩, fun h => h.1⟩
  · rw [value_combine_power_not_whole hkind hb he hden, powerIdentities_not_whole hden]
    refine ⟨fun h => ⟨fun hq => ?_, fun _ => h⟩, fun h => h.2 hden⟩
    exact absurd (by rw [hq]; rfl) hden

theorem one_lt_overflow : (1 : ℚ) < 2 ^ 1024 - 2 ^ 970 :=
  (one_le_pow₀ one_le_two).trans_lt Binary64.two_pow_lt_overflow

theorem underflow_lt_one : (1 : ℚ) / 2 ^ 1075 < 1 :=
  (div_lt_one (by positivity)).2 (one_lt_pow₀ one_lt_two (by norm_num))

/-- A zero base, for an exponent that no other rule takes. -/
theorem powerIdentities_zeroToPower (hb : b.toRat? = some 0) (he : e.toRat? = some q) (hq0 : q ≠ 0)
    (hq1 : q ≠ 1) :
    PowerIdentities 0 q (zeroToPower b e).value ↔
      ¬ 2 ^ 1024 - 2 ^ 970 ≤ |q| ∧ ¬ (0 < q ∧ q ≤ 1 / 2 ^ 1075) := by
  rw [value_zeroToPower hb he]
  by_cases hlarge : 2 ^ 1024 - 2 ^ 970 ≤ |q|
  · rw [if_pos hlarge]
    refine iff_of_false ?_ fun h => h.1 hlarge
    rintro ⟨⟨r, hr⟩, -⟩
    cases hr
  rw [if_neg hlarge]
  by_cases hsmall : 1 / 2 ^ 1075 < q
  · rw [if_pos hsmall, powerIdentities_of_isLiteral ⟨.zero, rfl, toRat?_integer 0⟩]
    exact iff_of_true ⟨fun h => absurd h hq0, fun h => absurd h hq1, fun h => absurd h zero_ne_one,
      fun _ _ => Int.cast_zero⟩ ⟨hlarge, fun h => absurd hsmall (not_lt.2 h.2)⟩
  rw [if_neg hsmall]
  constructor
  · intro h
    refine ⟨hlarge, fun hq => ?_⟩
    -- a whole positive exponent does not vanish
    have hden : q.den ≠ 1 := fun hden => by
      have hone : (1 : ℚ) ≤ q := by
        rw [← Rat.coe_int_num_of_den_eq_one hden]
        exact_mod_cast Rat.num_pos.2 hq.1
      exact absurd (hone.trans hq.2) (not_le.2 underflow_lt_one)
    have hzero := h.zeroBase rfl hq.1
    rw [if_neg hden] at hzero
    exact not_isLiteral_none hzero
  · rintro ⟨-, h⟩
    exact ⟨⟨_, rfl⟩, fun h' => absurd h' hq0, fun h' => absurd h' hq1,
      fun h' => absurd h' zero_ne_one, fun _ hpos => absurd ⟨hpos, not_lt.1 hsmall⟩ h⟩

/-- Numbers of different kinds satisfy the identities unless zero is raised to a power that has no
double or vanishes as one. -/
theorem powerIdentities_mixed (hkind : b.sameKind e = false) (hb : b.toRat? = some p)
    (he : e.toRat? = some q) :
    PowerIdentities p q (combine .power (.num b) (.num e)).value ↔
      (p = 0 → ¬ 2 ^ 1024 - 2 ^ 970 ≤ |q| ∧ ¬ (0 < q ∧ q ≤ 1 / 2 ^ 1075)) := by
  rw [value_combine_power_mixed hkind hb he]
  -- the rules are tried in this order: exponent zero, exponent one, base one, base zero
  by_cases hq0 : q = 0
  · subst hq0
    rw [if_pos rfl, powerIdentities_of_isLiteral ⟨_, rfl, toRat?_unit⟩]
    refine iff_of_true ⟨fun _ => rfl, fun h => absurd h zero_ne_one, fun _ => rfl,
      fun _ h => absurd h (lt_irrefl 0)⟩ fun _ => ⟨?_, fun h => absurd h.1 (lt_irrefl 0)⟩
    rw [abs_zero, not_le]
    exact zero_lt_one.trans one_lt_overflow
  by_cases hq1 : q = 1
  · subst hq1
    rw [if_neg hq0, if_pos rfl, powerIdentities_of_isLiteral ⟨b, rfl, hb⟩]
    refine iff_of_true ⟨fun h => absurd h hq0, fun _ => rfl, id, fun h _ => h⟩
      fun _ => ⟨?_, fun h => absurd h.2 (not_le.2 underflow_lt_one)⟩
    rw [abs_one, not_le]
    exact one_lt_overflow
  rw [if_neg hq0, if_neg hq1]
  by_cases hp1 : p = 1
  · subst hp1
    rw [if_pos rfl, powerIdentities_of_isLiteral ⟨_, rfl, toRat?_unit⟩]
    exact iff_of_true ⟨fun _ => rfl, fun _ => rfl, fun _ => rfl, fun h => absurd h one_ne_zero⟩
      fun h => absurd h one_ne_zero
  rw [if_neg hp1]
  by_cases hp0 : p = 0
  · subst hp0
    rw [if_pos rfl, powerIdentities_zeroToPower hb he hq0 hq1]
    exact ⟨fun h _ => h, fun h => h rfl⟩
  · rw [if_neg hp0]
    exact iff_of_true ⟨⟨_, rfl⟩, fun h => absurd h hq0, fun h => absurd h hq1,
      fun h => absurd h hp1, fun h => absurd h hp0⟩ fun h => absurd h hp0

/-- The identities of a power hold for exact numbers outside the gaps, and only there. -/
theorem powerIdentities_iff (hb : b.toRat? = some p) (he : e.toRat? = some q) :
    PowerIdentities p q (combine .power (.num b) (.num e)).value ↔ ¬ PowerGap b e p q := by
  cases hkind : b.sameKind e with
  | true =>
    rw [powerIdentities_alike hkind hb he]
    constructor
    · rintro ⟨hone, hroot⟩ (⟨-, hq, hp⟩ | ⟨-, hq, hp⟩ | ⟨-, hq, hpos, hp⟩ | ⟨hk, -⟩ | ⟨hk, -⟩)
      · exact hp (hone hq)
      · exact (hroot hq).1 hp
      · exact (hroot hq).2 ⟨hp, hpos⟩
      · exact Bool.false_ne_true (hk.symm.trans hkind)
      · exact Bool.false_ne_true (hk.symm.trans hkind)
    · intro h
      refine ⟨fun hq => by_contra fun hp => h (.large hkind hq hp), fun hq => ⟨fun hp => ?_, ?_⟩⟩
      · exact h (.rootOfOne hkind hq hp)
      · rintro ⟨hp, hpos⟩
        exact h (.rootOfZero hkind hq hpos hp)
  | false =>
    rw [powerIdentities_mixed hkind hb he]
    constructor
    · rintro hzero (⟨hk, -⟩ | ⟨hk, -⟩ | ⟨hk, -⟩ | ⟨-, hq, hp⟩ | ⟨-, hpos, hq, hp⟩)
      · exact Bool.false_ne_true (hkind.symm.trans hk)
      · exact Bool.false_ne_true (hkind.symm.trans hk)
      · exact Bool.false_ne_true (hkind.symm.trans hk)
      · exact (hzero hp).1 hq
      · exact (hzero hp).2 ⟨hpos, hq⟩
    · intro h hp
      refine ⟨fun hq => h (.overflow hkind hq hp), ?_⟩
      rintro ⟨hpos, hq⟩
      exact h (.underflow hkind hpos hq hp)

/-- An integer to a ratio that is one is the integer, however large it is. -/
theorem powerIdentities_large :
    PowerIdentities (2 ^ 10000) 1 (combine .power (.int (2 ^ 10000)) (.num (.fraction 1))).value :=
  (powerIdentities_iff (b := .integer (2 ^ 10000)) (e := .fraction 1)
    (by rw [toRat?_integer, Int.cast_pow, Int.cast_ofNat]) rfl).2 <| by
    rintro (⟨hk, -⟩ | ⟨hk, -⟩ | ⟨hk, -⟩ | ⟨-, -, hp⟩ | ⟨-, -, -, hp⟩)
    · cases hk
    · cases hk
    · cases hk
    · exact pow_ne_zero 10000 two_ne_zero hp
    · exact pow_ne_zero 10000 two_ne_zero hp

/-- Zero to a large power fails, the square root of zero stays, and so does a large number to the
power one. -/
theorem combine_power_gaps :
    (combine .power (.num (.fraction 0)) (.int (2 ^ 1024))).value = .error .beyondDouble ∧
      (combine .power (.num (.fraction 0)) (.num (.fraction (1 / 2)))).value = .ok none ∧
      (combine .power (.int (2 ^ 10000)) (.int 1)).value = .ok none := by
  refine ⟨?_, value_combine_power_not_whole rfl rfl rfl (by simp), ?_⟩
  · have hlarge : (2 : ℚ) ^ 1024 - 2 ^ 970 ≤ |2 ^ 1024| := by
      rw [abs_of_nonneg (by positivity)]
      exact sub_le_self _ (by positivity)
    have hbase : (fraction 0).toRat? = some 0 := rfl
    have hexponent : (integer (2 ^ 1024)).toRat? = some (2 ^ 1024) := by
      rw [toRat?_integer, Int.cast_pow, Int.cast_ofNat]
    have hone : (1 : ℚ) < 2 ^ 1024 := one_lt_pow₀ one_lt_two (by norm_num)
    show (combine .power (.num (fraction 0)) (.num (integer (2 ^ 1024)))).value = _
    rw [value_combine_power_mixed rfl hbase hexponent, if_neg (zero_lt_one.trans hone).ne',
      if_neg hone.ne', if_neg zero_ne_one, if_pos rfl, value_zeroToPower hbase hexponent,
      if_pos hlarge]
  · have hbase : (integer (2 ^ 10000)).toRat? = some (2 ^ 10000) := by
      rw [toRat?_integer, Int.cast_pow, Int.cast_ofNat]
    have hbits : ¬ HasExactBits (2 ^ 10000) := not_hasExactBits_two_pow (by decide)
    have hvalue := value_combine_power_whole (e := .integer 1) rfl hbase rfl
    rw [exactPower?_one, if_neg hbits] at hvalue
    exact hvalue

end Reckoner.Simplify
