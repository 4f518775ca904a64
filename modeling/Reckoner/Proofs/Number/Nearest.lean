import Reckoner.Proofs.Number.Fields

/-!
# The range of the doubles

`nearestBits` rounds every quotient, also where the doubles end. A quotient is beyond the finite
doubles from halfway between the largest of them and `2 ^ 1024` on, and it vanishes up to half the
smallest one: at both ends the tie goes away from the odd significand.
-/

namespace Reckoner.Binary64

variable {num den : ℕ}

/-! ## Rounding to a whole number -/

theorem even_le_roundDiv {s : ℕ} (hden : 0 < den) (hs : s % 2 = 0) :
    s ≤ roundDiv num den ↔ 2 * s * den ≤ 2 * num + den := by
  have hdiv : den * (num / den) + num % den = num := Nat.div_add_mod num den
  have hmod : num % den < den := Nat.mod_lt num hden
  unfold roundDiv
  dsimp only
  generalize num / den = q at *
  generalize num % den = r at *
  rcases Nat.lt_trichotomy s (q + 1) with hlt | rfl | hgt
  · have hmul : den * s ≤ den * q := Nat.mul_le_mul_left den (by omega)
    have hle : 2 * s * den ≤ 2 * num + den := by
      rw [Nat.mul_assoc, Nat.mul_comm s]
      omega
    split_ifs <;> omega
  · -- halfway up, the quotient is odd
    have hmul : 2 * (q + 1) * den = 2 * (den * q) + 2 * den := by ring
    rw [hmul]
    split_ifs <;> omega
  · have hmul : den * (q + 2) ≤ den * s := Nat.mul_le_mul_left den hgt
    have hgt' : 2 * num + den < 2 * s * den := by
      rw [Nat.mul_assoc, Nat.mul_comm s]
      rw [Nat.mul_add] at hmul
      omega
    split_ifs <;> omega

theorem roundDiv_eq_zero_iff (hden : 0 < den) : roundDiv num den = 0 ↔ 2 * num ≤ den := by
  have hdiv : den * (num / den) + num % den = num := Nat.div_add_mod num den
  have hmod : num % den < den := Nat.mod_lt num hden
  unfold roundDiv
  dsimp only
  generalize num / den = q at *
  generalize num % den = r at *
  rcases Nat.eq_zero_or_pos q with rfl | hq
  · simp only [Nat.mul_zero, Nat.zero_add] at hdiv
    split_ifs <;> simp <;> omega
  · have hmul : den * 1 ≤ den * q := Nat.mul_le_mul_left den hq
    refine iff_of_false (Nat.pos_iff_ne_zero.1 ?_) (by omega)
    split_ifs <;> omega

/-! ## Significand and exponent -/

theorem two_zpow_natCast (k : ℕ) : (2 : ℚ) ^ (k : ℤ) = ((2 ^ k : ℕ) : ℚ) := by
  rw [zpow_natCast]
  push_cast
  rfl

theorem scaled_den_pos (hden : 0 < den) (e : ℤ) : 0 < (scaled num den e).2 := by
  unfold scaled
  split
  · exact hden
  · exact Nat.mul_pos hden (Nat.pow_pos (by decide))

theorem scaled_value (num den : ℕ) (e : ℤ) :
    ((scaled num den e).1 : ℚ) / (scaled num den e).2 = num / den / 2 ^ e := by
  unfold scaled
  split
  · next h =>
    obtain ⟨k, rfl⟩ : ∃ k : ℕ, e = -k := ⟨e.natAbs, by omega⟩
    rw [neg_neg, Int.toNat_natCast, zpow_neg, zpow_natCast]
    push_cast [show ∀ n : ℕ, Nat.pow 2 n = 2 ^ n from fun _ => rfl]
    rw [div_inv_eq_mul, div_mul_eq_mul_div]
  · next h =>
    lift e to ℕ using not_lt.1 h
    rw [Int.toNat_natCast, zpow_natCast]
    push_cast [show ∀ n : ℕ, Nat.pow 2 n = 2 ^ n from fun _ => rfl]
    rw [div_div]

theorem nearestBits_zero (den : ℕ) : nearestBits 0 den = 0 := rfl

/-- What `nearestBits` packs: a rounded significand at an exponent that leaves it its leading bit,
unless the exponent is the smallest there is. -/
structure Scaling (v : ℚ) (n d : ℕ) (e : ℤ) : Prop where
  pos : 0 < d
  value : (n : ℚ) / d = v / 2 ^ e
  least : -1074 ≤ e
  upper : v < 2 ^ (e + 53)
  lower : -1074 < e → 2 ^ (e + 52) ≤ v

/-- The binary logarithms tell a quotient up to a factor of two. -/
theorem quotient_bounds (hnum : num ≠ 0) (hden : den ≠ 0) :
    (2 : ℚ) ^ ((num.log2 : ℤ) - den.log2 - 1) < num / den ∧
      (num : ℚ) / den < 2 ^ ((num.log2 : ℤ) - den.log2 + 1) := by
  have hd : (0 : ℚ) < den := by exact_mod_cast Nat.pos_of_ne_zero hden
  have hnl : ((2 ^ num.log2 : ℕ) : ℚ) ≤ num := by exact_mod_cast Nat.log2_self_le hnum
  have hnu : (num : ℚ) < (2 ^ (num.log2 + 1) : ℕ) := by exact_mod_cast Nat.lt_log2_self
  have hdl : ((2 ^ den.log2 : ℕ) : ℚ) ≤ den := by exact_mod_cast Nat.log2_self_le hden
  have hdu : (den : ℚ) < (2 ^ (den.log2 + 1) : ℕ) := by exact_mod_cast Nat.lt_log2_self
  rw [← two_zpow_natCast] at hnl hnu hdl hdu
  push_cast at hnu hdu
  constructor
  · rw [lt_div_iff₀ hd]
    calc (2 : ℚ) ^ ((num.log2 : ℤ) - den.log2 - 1) * den
        < 2 ^ ((num.log2 : ℤ) - den.log2 - 1) * 2 ^ ((den.log2 : ℤ) + 1) := by gcongr
      _ = 2 ^ (num.log2 : ℤ) := by
        rw [← zpow_add₀ two_ne_zero]
        congr 1
        ring
      _ ≤ num := hnl
  · rw [div_lt_iff₀ hd]
    calc (num : ℚ) < 2 ^ ((num.log2 : ℤ) + 1) := hnu
      _ = 2 ^ ((num.log2 : ℤ) - den.log2 + 1) * 2 ^ (den.log2 : ℤ) := by
        rw [← zpow_add₀ two_ne_zero]
        congr 1
        ring
      _ ≤ 2 ^ ((num.log2 : ℤ) - den.log2 + 1) * den := by gcongr

theorem exists_scaling (hnum : num ≠ 0) (hden : den ≠ 0) :
    ∃ n d e, Scaling ((num : ℚ) / den) n d e ∧ nearestBits num den = packed (roundDiv n d) e := by
  obtain ⟨hlow, hhigh⟩ := quotient_bounds hnum hden
  have hd : 0 < den := Nat.pos_of_ne_zero hden
  have hmono : ∀ {i j : ℤ}, i ≤ j → (2 : ℚ) ^ i ≤ 2 ^ j := fun h =>
    zpow_le_zpow_right₀ one_le_two h
  unfold nearestBits
  rw [if_neg hnum]
  generalize he : max ((num.log2 : ℤ) - den.log2 - 53) (-1074) = e
  have hpos : (0 : ℚ) < 2 ^ e := zpow_pos two_pos e
  have hs : 0 < (scaled num den e).2 := scaled_den_pos hd e
  have hsq : (0 : ℚ) < (scaled num den e).2 := by exact_mod_cast hs
  have hadd : ∀ k : ℤ, (2 : ℚ) ^ (e + k) = 2 ^ k * 2 ^ e := fun k => by
    rw [zpow_add₀ two_ne_zero, mul_comm]
  -- the first try fits exactly if the quotient is below the next power of two
  have hfit : (scaled num den e).1 / (scaled num den e).2 < 2 * leadingBit ↔
      (num : ℚ) / den < 2 ^ (e + 53) := by
    rw [Nat.div_lt_iff_lt_mul hs, hadd, ← div_lt_iff₀ hpos, ← scaled_value, div_lt_iff₀ hsq]
    have hbit : (2 : ℚ) ^ (53 : ℤ) = ((2 * leadingBit : ℕ) : ℚ) := by
      rw [show (53 : ℤ) = ((53 : ℕ) : ℤ) from rfl, two_zpow_natCast]
      rfl
    rw [hbit]
    exact_mod_cast Iff.rfl
  dsimp only
  split
  · next h =>
    refine ⟨_, _, e, ⟨hs, scaled_value num den e, by omega, hfit.1 h, fun hlt => ?_⟩, rfl⟩
    exact (hmono (by omega)).trans hlow.le
  · next h =>
    have hge : (2 : ℚ) ^ (e + 53) ≤ num / den := not_lt.1 fun hlt => h (hfit.2 hlt)
    refine ⟨_, _, e + 1, ⟨scaled_den_pos hd _, scaled_value num den _, by omega, ?_, fun _ => ?_⟩,
      rfl⟩
    · exact hhigh.trans_le (hmono (by omega))
    · exact (hmono (by omega)).trans hge

/-! ## Both ends -/

section Scaling

variable {v : ℚ} {n d : ℕ} {e : ℤ}

theorem Scaling.le_significand (h : Scaling v n d e) {k : ℚ} : k * d ≤ n ↔ k * 2 ^ e ≤ v := by
  have hd : (0 : ℚ) < d := by exact_mod_cast h.pos
  have he : (0 : ℚ) < 2 ^ e := zpow_pos two_pos e
  rw [← le_div_iff₀ hd, h.value, le_div_iff₀ he]

theorem Scaling.significand_le (h : Scaling v n d e) {k : ℚ} : n ≤ k * d ↔ v ≤ k * 2 ^ e := by
  have hd : (0 : ℚ) < d := by exact_mod_cast h.pos
  have he : (0 : ℚ) < 2 ^ e := zpow_pos two_pos e
  rw [← div_le_iff₀ hd, h.value, div_le_iff₀ he]

theorem Scaling.lt (h : Scaling v n d e) : n < 2 ^ 53 * d := by
  have hlt : ¬ (2 : ℚ) ^ 53 * d ≤ n := by
    rw [h.le_significand, not_le, ← zpow_natCast, ← zpow_add₀ two_ne_zero, add_comm]
    exact h.upper
  exact_mod_cast not_le.1 hlt

theorem Scaling.le (h : Scaling v n d e) (he : -1074 < e) : 2 ^ 52 * d ≤ n := by
  have hle : (2 : ℚ) ^ 52 * d ≤ n := by
    rw [h.le_significand, ← zpow_natCast, ← zpow_add₀ two_ne_zero, add_comm]
    exact h.lower he
  exact_mod_cast hle

end Scaling

theorem two_pow_lt_overflow : (2 : ℚ) ^ 1023 < 2 ^ 1024 - 2 ^ 970 := by
  rw [lt_sub_iff_add_lt, pow_succ (2 : ℚ) 1023, mul_two]
  exact add_lt_add_right (pow_lt_pow_right₀ one_lt_two (by norm_num)) _

/-- The quotients that have no finite double. -/
theorem infiniteBits_le_nearestBits_iff (hden : den ≠ 0) :
    infiniteBits ≤ nearestBits num den ↔ (2 : ℚ) ^ 1024 - 2 ^ 970 ≤ num / den := by
  have hhigh : (2 : ℚ) ^ 1024 - 2 ^ 970 ≤ 2 ^ 1024 := sub_le_self _ (by positivity)
  by_cases hnum : num = 0
  · have hpos : (0 : ℚ) < 2 ^ 1024 - 2 ^ 970 := lt_trans (by positivity) two_pow_lt_overflow
    rw [hnum, Nat.cast_zero, zero_div, nearestBits_zero]
    exact iff_of_false (by decide) (not_le.2 hpos)
  obtain ⟨n, d, e, hs, hbits⟩ := exists_scaling hnum hden
  rw [hbits]
  unfold packed infiniteBits leadingBit
  rcases lt_trichotomy e 971 with he | rfl | he
  · -- the significand is rounded to `2 ^ 53` at most, which is within the exponent field
    have hround : ¬ 2 ^ 53 + 2 ≤ roundDiv n d := by
      rw [even_le_roundDiv hs.pos (by norm_num)]
      have hlt := hs.lt
      omega
    have hsmall : (num : ℚ) / den < 2 ^ 1023 := by
      rw [← zpow_natCast]
      exact hs.upper.trans_le (zpow_le_zpow_right₀ one_le_two (by omega))
    refine iff_of_false (by omega) (not_le.2 (hsmall.trans two_pow_lt_overflow))
  · -- here the significand decides, and its tie is at an odd one
    have hhalf : 2 * 2 ^ 53 * d ≤ 2 * n + d ↔ ((2 : ℚ) ^ 53 - 1 / 2) * d ≤ n := by
      rw [← Nat.cast_le (α := ℚ)]
      push_cast
      constructor <;> intro h <;> linarith
    have hvalue : ((2 : ℚ) ^ 53 - 1 / 2) * 2 ^ (971 : ℤ) = 2 ^ 1024 - 2 ^ 970 := by
      rw [show (971 : ℤ) = ((971 : ℕ) : ℤ) from rfl, zpow_natCast, sub_mul, ← pow_add,
        pow_succ (2 : ℚ) 970, mul_comm ((2 : ℚ) ^ 970), ← mul_assoc, one_div_mul_cancel two_ne_zero,
        one_mul]
    have hround : 2 ^ 53 ≤ roundDiv n d ↔ (2 : ℚ) ^ 1024 - 2 ^ 970 ≤ num / den := by
      rw [even_le_roundDiv hs.pos (by norm_num), hhalf, hs.le_significand, hvalue]
    rw [← hround]
    omega
  · -- the significand is full, and its exponent is beyond the field
    have hround : 2 ^ 52 ≤ roundDiv n d := by
      rw [even_le_roundDiv hs.pos (by norm_num)]
      have hle := hs.le (by omega)
      omega
    have hlarge : (2 : ℚ) ^ 1024 ≤ num / den := by
      rw [← zpow_natCast]
      exact (zpow_le_zpow_right₀ one_le_two (by omega)).trans (hs.lower (by omega))
    exact iff_of_true (by omega) (hhigh.trans hlarge)

/-- The quotients that vanish when they are rounded. -/
theorem nearestBits_eq_zero_iff (hden : den ≠ 0) :
    nearestBits num den = 0 ↔ (num : ℚ) / den ≤ 1 / 2 ^ 1075 := by
  by_cases hnum : num = 0
  · rw [hnum, Nat.cast_zero, zero_div, nearestBits_zero]
    exact iff_of_true rfl (by positivity)
  obtain ⟨n, d, e, hs, hbits⟩ := exists_scaling hnum hden
  rw [hbits]
  unfold packed leadingBit
  rcases hs.least.eq_or_lt with rfl | he
  · have hhalf : 2 * n ≤ d ↔ (n : ℚ) ≤ 1 / 2 * d := by
      rw [← Nat.cast_le (α := ℚ)]
      push_cast
      constructor <;> intro h <;> linarith
    have hvalue : (1 / 2 : ℚ) * 2 ^ (-1074 : ℤ) = 1 / 2 ^ 1075 := by
      rw [show (-1074 : ℤ) = -((1074 : ℕ) : ℤ) from rfl, zpow_neg, zpow_natCast,
        pow_succ (2 : ℚ) 1074, mul_comm ((2 : ℚ) ^ 1074), ← one_div, one_div_mul_one_div]
    have hround : roundDiv n d = 0 ↔ (num : ℚ) / den ≤ 1 / 2 ^ 1075 := by
      rw [roundDiv_eq_zero_iff hs.pos, hhalf, hs.significand_le, hvalue]
    rw [← hround]
    omega
  · have hlarge : (2 : ℚ) ^ (-1022 : ℤ) ≤ num / den :=
      (zpow_le_zpow_right₀ one_le_two (by omega)).trans (hs.lower he)
    have hlt : (1 : ℚ) / 2 ^ 1075 < 2 ^ (-1022 : ℤ) := by
      rw [one_div, ← zpow_natCast, ← zpow_neg]
      exact zpow_lt_zpow_right₀ one_lt_two (by norm_num)
    exact iff_of_false (by omega) (not_le.2 (hlt.trans_le hlarge))

theorem ofQuotient?_eq_none_iff (negative : Bool) (hden : den ≠ 0) :
    ofQuotient? negative num den = none ↔ (2 : ℚ) ^ 1024 - 2 ^ 970 ≤ num / den := by
  rw [← infiniteBits_le_nearestBits_iff hden]
  unfold ofQuotient?
  dsimp only
  split
  · next h => simp [h]
  · next h => simpa using h

theorem zero_lt_of_ofQuotient? {negative : Bool} {x : Float} (hden : den ≠ 0)
    (hx : ofQuotient? negative num den = some x) :
    0 < x ↔ negative = false ∧ (1 : ℚ) / 2 ^ 1075 < num / den := by
  unfold ofQuotient? at hx
  dsimp only at hx
  split at hx
  · next h =>
    rw [← not_le, ← nearestBits_eq_zero_iff hden, ← Option.some.inj hx]
    cases negative with
    | false =>
      have hpos := zero_lt_ofBits_iff .positive h
      rw [show Float.Model.UnpackedFloat.Sign.positive.toBitVec.toNat = 0 from rfl, Nat.zero_mul,
        Nat.zero_add] at hpos
      rw [if_neg Bool.false_ne_true, hpos]
      exact and_congr_left' (iff_of_true rfl rfl)
    | true =>
      have hneg := zero_lt_ofBits_iff .negative h
      rw [show Float.Model.UnpackedFloat.Sign.negative.toBitVec.toNat = 1 from rfl,
        Nat.one_mul] at hneg
      rw [if_pos rfl, hneg]
      exact and_congr_left' (iff_of_false nofun nofun)
  · cases hx

end Reckoner.Binary64

namespace Reckoner.Number

variable {a : Number} {q : ℚ}

theorem natAbs_div_den (q : ℚ) : (q.num.natAbs : ℚ) / q.den = |q| := by
  rw [Nat.cast_natAbs, Int.cast_abs, ← Nat.abs_cast q.den, ← abs_div, Rat.num_div_den]

theorem toFloat?_plain (a : Number) : a.plain.toFloat? = a.toFloat? := by
  cases a with
  | unit => rfl
  | _ => rfl

/-- The double of an exact number, from its value alone. -/
theorem toFloat?_eq (h : a.toRat? = some q) :
    a.toFloat? = Binary64.ofQuotient? (q < 0) q.num.natAbs q.den := by
  rw [← toFloat?_plain]
  have hneg : decide (q < 0) = decide (q.num < 0) := decide_eq_decide.2 Rat.num_neg.symm
  rw [hneg]
  cases a with
  | double x => cases h
  | _ =>
    cases h
    rfl

/-- The exact numbers that have no finite double. -/
theorem toFloat?_eq_none_iff (h : a.toRat? = some q) :
    a.toFloat? = none ↔ 2 ^ 1024 - 2 ^ 970 ≤ |q| := by
  rw [toFloat?_eq h, Binary64.ofQuotient?_eq_none_iff _ q.den_nz, natAbs_div_den]

/-- The exact numbers of which the nearest double is greater than zero. -/
theorem zero_lt_of_toFloat? {x : Float} (h : a.toRat? = some q) (hx : a.toFloat? = some x) :
    0 < x ↔ 1 / 2 ^ 1075 < q := by
  rw [toFloat?_eq h] at hx
  rw [Binary64.zero_lt_of_ofQuotient? q.den_nz hx, natAbs_div_den, decide_eq_false_iff_not, not_lt]
  have hpos : (0 : ℚ) < 1 / 2 ^ 1075 := by positivity
  constructor
  · rintro ⟨hq, hlt⟩
    rwa [abs_of_nonneg hq] at hlt
  · intro hlt
    have hq : 0 ≤ q := (hpos.trans hlt).le
    exact ⟨hq, by rwa [abs_of_nonneg hq]⟩

end Reckoner.Number
