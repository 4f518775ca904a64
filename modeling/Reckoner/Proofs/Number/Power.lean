import Reckoner.Proofs.Meaning
import Mathlib.Data.Nat.Size

/-!
# Powers of exact numbers

A power is computed if it is defined and the estimate of its size, the exponent times the bits of
the base, stays within `maxExactBits`. The estimate is never too small: what is computed has at most
that many bits in numerator and denominator.
-/

namespace Reckoner.Number

/-! ## Bits -/

theorem bitLength_eq_size (n : ℕ) : bitLength n = n.size := by
  refine eq_of_forall_ge_iff fun k => ?_
  rw [Nat.size_le]
  unfold bitLength
  split
  · next h =>
    subst h
    simp
  · next h => rw [Nat.succ_le_iff, Nat.log2_lt h]

theorem bitLength_le_iff {n k : ℕ} : bitLength n ≤ k ↔ n < 2 ^ k := by
  rw [bitLength_eq_size, Nat.size_le]

theorem bitLength_pow_le {n k : ℕ} (hk : k ≠ 0) : bitLength (n ^ k) ≤ k * bitLength n := by
  have hn : n < 2 ^ bitLength n := bitLength_le_iff.1 le_rfl
  rw [bitLength_le_iff, Nat.mul_comm, Nat.pow_mul]
  exact Nat.pow_lt_pow_left hn hk

/-- The size estimate is not exceeded by any power of a base of at most one bit. -/
theorem powerTooLarge_eq_false_iff {n : ℕ} {e : ℤ} :
    powerTooLarge n e = false ↔ n ≤ 1 ∨ e.natAbs * bitLength n ≤ maxExactBits := by
  unfold powerTooLarge
  rw [Bool.and_eq_false_iff, decide_eq_false_iff_not, decide_eq_false_iff_not, not_lt, not_lt]

/-- A number itself and its reciprocal are estimated by its own bits. -/
theorem powerTooLarge_eq_false_iff_of_natAbs_eq_one {n : ℕ} {e : ℤ} (he : e.natAbs = 1) :
    powerTooLarge n e = false ↔ bitLength n ≤ maxExactBits := by
  rw [powerTooLarge_eq_false_iff, he, one_mul, or_iff_right_of_imp]
  intro hn
  rw [bitLength_le_iff]
  exact hn.trans_lt (Nat.one_lt_two_pow (by decide))

/-- A power that is not estimated as too large is not too large. -/
theorem bitLength_pow_of_powerTooLarge {n : ℕ} {e : ℤ} (h : powerTooLarge n e = false) :
    bitLength (n ^ e.natAbs) ≤ maxExactBits := by
  have hone : bitLength 1 ≤ maxExactBits := by decide
  by_cases he : e.natAbs = 0
  · rw [he, pow_zero]
    exact hone
  rcases powerTooLarge_eq_false_iff.1 h with hn | hsize
  · have hpow : n ^ e.natAbs ≤ 1 := Nat.pow_le_one_iff he |>.2 hn
    rw [bitLength_le_iff] at hone ⊢
    omega
  · exact (bitLength_pow_le he).trans hsize

/-- Numerator and denominator have at most `maxExactBits` bits. -/
def HasExactBits (q : ℚ) : Prop :=
  bitLength q.num.natAbs ≤ maxExactBits ∧ bitLength q.den ≤ maxExactBits

instance (q : ℚ) : Decidable (HasExactBits q) :=
  inferInstanceAs (Decidable (_ ∧ _))

theorem not_hasExactBits_two_pow {n : ℕ} (hn : maxExactBits ≤ n) : ¬ HasExactBits (2 ^ n) := by
  unfold HasExactBits
  generalize maxExactBits = k at hn ⊢
  rintro ⟨hnum, -⟩
  rw [Rat.num_pow, Int.natAbs_pow, bitLength_le_iff] at hnum
  exact absurd hnum (not_lt.2 (Nat.pow_le_pow_right two_pos hn))

/-! ## Powers -/

theorem hasExactBits_inv {q : ℚ} (hq : q ≠ 0) : HasExactBits q⁻¹ ↔ HasExactBits q := by
  have hnum : q⁻¹.num.natAbs = q.den := by
    have hsign : q.num.sign.natAbs = 1 := Int.natAbs_sign_of_ne_zero (Rat.num_ne_zero.2 hq)
    rw [Rat.num_inv, Int.natAbs_mul, hsign, one_mul, Int.natAbs_natCast]
  rw [HasExactBits, hnum, Rat.den_inv_of_ne_zero hq, and_comm]
  rfl

theorem hasExactBits_zpow {b : ℚ} {e : ℤ} (hdef : b ≠ 0 ∨ 0 ≤ e)
    (hnum : powerTooLarge b.num.natAbs e = false) (hden : powerTooLarge b.den e = false) :
    HasExactBits (b ^ e) := by
  have hpow : HasExactBits (b ^ e.natAbs) := by
    rw [HasExactBits, Rat.num_pow, Rat.den_pow, Int.natAbs_pow]
    exact ⟨bitLength_pow_of_powerTooLarge hnum, bitLength_pow_of_powerTooLarge hden⟩
  by_cases he : 0 ≤ e
  · rw [← Int.natAbs_of_nonneg he, zpow_natCast]
    exact hpow
  · have hb : b ≠ 0 := hdef.resolve_right he
    have hneg : e = -(e.natAbs : ℤ) := by omega
    rw [hneg, zpow_neg, zpow_natCast]
    exact (hasExactBits_inv (pow_ne_zero _ hb)).2 hpow

/-- A power has an answer exactly when it is defined and not estimated as too large. -/
theorem exactPower?_eq (b : ℚ) (e : ℤ) :
    exactPower? b e = if (b ≠ 0 ∨ 0 ≤ e) ∧ powerTooLarge b.num.natAbs e = false ∧
      powerTooLarge b.den e = false then some (ofRat (b ^ e)) else none := by
  unfold exactPower?
  rw [exactPower_eq_zpow]
  split
  · next hundefined =>
    have hzero : b = 0 ∧ e < 0 := by simpa using hundefined
    rw [if_neg]
    rintro ⟨hb | he, -⟩
    · exact hb hzero.1
    · omega
  · next hdefined =>
    have hdef : b ≠ 0 ∨ 0 ≤ e := by
      by_contra hc
      push Not at hc
      exact hdefined (by simpa using hc)
    split
    · next hlarge =>
      rw [if_neg]
      rintro ⟨-, hnum, hden⟩
      simp [hnum, hden] at hlarge
    · next hsmall =>
      have hfit := Bool.or_eq_false_iff.1 (Bool.not_eq_true _ ▸ hsmall)
      rw [if_pos ⟨hdef, hfit⟩]

/-- Of two numbers of one kind the power is exact, for a whole exponent. -/
theorem powAlike_eq {a b : Number} {p : ℚ} {n : ℤ} (hkind : a.sameKind b = true)
    (ha : a.toRat? = some p) (hb : b.toRat? = some (n : ℚ)) :
    a.powAlike b = .ok (exactPower? p n) := by
  rw [← toRat?_plain] at ha hb
  unfold sameKind at hkind
  split at hkind
  · next i j hi hj =>
    rw [hi] at ha
    rw [hj] at hb
    simp only [toRat?, Option.some.injEq, Int.cast_inj] at ha hb
    subst ha hb
    unfold powAlike
    rw [hi, hj]
  · next x y hx hy =>
    rw [hx] at ha
    cases ha
  · next x y hx hy =>
    rw [hx] at ha
    rw [hy] at hb
    simp only [toRat?, Option.some.injEq] at ha hb
    subst ha hb
    unfold powAlike
    rw [hx, hy]
    simp
  · cases hkind

/-- Of two numbers of one kind no power is computed, if the exponent is not whole. -/
theorem powAlike_of_den_ne_one {a b : Number} {p q : ℚ} (hkind : a.sameKind b = true)
    (ha : a.toRat? = some p) (hb : b.toRat? = some q) (hden : q.den ≠ 1) :
    a.powAlike b = .ok none := by
  rw [← toRat?_plain] at ha hb
  unfold sameKind at hkind
  split at hkind
  · next i j hi hj =>
    rw [hj] at hb
    cases hb
    exact absurd (Rat.den_intCast j) hden
  · next x y hx hy =>
    rw [hx] at ha
    cases ha
  · next x y hx hy =>
    rw [hy] at hb
    cases hb
    unfold powAlike
    rw [hx, hy]
    simp [hden]
  · cases hkind

/-! ## Edge cases -/

theorem exactPower?_zero (b : ℚ) : exactPower? b 0 = some (ofRat 1) := by
  have hsmall : ∀ n, powerTooLarge n 0 = false := fun n =>
    powerTooLarge_eq_false_iff.2 (.inr (by simp))
  rw [exactPower?_eq, if_pos ⟨.inr le_rfl, hsmall _, hsmall _⟩, zpow_zero]

theorem exactPower?_one (b : ℚ) :
    exactPower? b 1 = if HasExactBits b then some (ofRat b) else none := by
  have hsize : ∀ n, powerTooLarge n 1 = false ↔ bitLength n ≤ maxExactBits := fun n =>
    powerTooLarge_eq_false_iff_of_natAbs_eq_one Int.natAbs_one
  have hcond : (b ≠ 0 ∨ (0 : ℤ) ≤ 1) ∧ powerTooLarge b.num.natAbs 1 = false ∧
      powerTooLarge b.den 1 = false ↔ HasExactBits b := by
    rw [and_iff_right (.inr zero_le_one), hsize, hsize, HasExactBits]
  rw [exactPower?_eq, zpow_one]
  exact if_congr hcond rfl rfl

theorem exactPower?_neg_one {b : ℚ} (hb : b ≠ 0) (hbits : HasExactBits b) :
    exactPower? b (-1) = some (ofRat b⁻¹) := by
  have hsize : ∀ {n}, bitLength n ≤ maxExactBits → powerTooLarge n (-1) = false :=
    (powerTooLarge_eq_false_iff_of_natAbs_eq_one (by decide)).2
  rw [exactPower?_eq, if_pos ⟨.inl hb, hsize hbits.1, hsize hbits.2⟩, zpow_neg_one]

theorem exactPower?_one_base (e : ℤ) : exactPower? 1 e = some (ofRat 1) := by
  have hsmall : powerTooLarge 1 e = false := powerTooLarge_eq_false_iff.2 (.inl le_rfl)
  rw [exactPower?_eq, if_pos ⟨.inl one_ne_zero, hsmall, hsmall⟩, one_zpow]

theorem exactPower?_zero_base {e : ℤ} (he : 0 < e) : exactPower? 0 e = some (ofRat 0) := by
  have hnum : powerTooLarge 0 e = false := powerTooLarge_eq_false_iff.2 (.inl zero_le_one)
  have hden : powerTooLarge 1 e = false := powerTooLarge_eq_false_iff.2 (.inl le_rfl)
  rw [exactPower?_eq, if_pos ⟨.inr he.le, hnum, hden⟩, zero_zpow e he.ne']

end Reckoner.Number
