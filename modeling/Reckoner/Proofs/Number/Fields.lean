import Reckoner.Number.Binary64
import Mathlib

/-!
# The sign of a double by its bits

A double is greater than zero exactly if its sign bit is clear and its other bits are not all clear,
short of the bit patterns that are not finite. The comparison is made on unpacked numbers, and so
the bits are followed through unpacking, packing and unpacking once more.
-/

namespace Reckoner.Binary64

open Float.Model Float.Model.UnpackedFloat

/-- The bit pattern of a sign, an exponent field and a significand without its leading bit. -/
def fields (s : Sign) (e m : ℕ) : BitVec 64 :=
  packComponents Format.binary64 s (BitVec.ofNat 11 e) (BitVec.ofNat 52 m)

variable {e m : ℕ}

/-- The three fields stand side by side in the pattern. -/
theorem toNat_fields (s : Sign) (he : e < 2 ^ 11) (hm : m < 2 ^ 52) :
    (fields s e m).toNat = s.toBitVec.toNat * signBit + e * leadingBit + m := by
  unfold fields packComponents signBit leadingBit
  rw [BitVec.toNat_append, BitVec.toNat_append, BitVec.toNat_ofNat, BitVec.toNat_ofNat,
    Nat.mod_eq_of_lt hm, Nat.mod_eq_of_lt he, ← Nat.shiftLeft_add_eq_or_of_lt hm,
    ← Nat.shiftLeft_add_eq_or_of_lt he, Nat.shiftLeft_eq, Nat.shiftLeft_eq]
  omega

theorem unpackSign_packComponents (s : Sign) (e : BitVec 11) (m : BitVec 52) :
    Sign.ofBitVec (unpackSign (packComponents Format.binary64 s e m)) = s := by
  unfold unpackSign packComponents BitVec.extractLsb
  rw [BitVec.extractLsb'_append_eq_of_le (by decide),
    BitVec.extractLsb'_append_eq_of_le (by decide)]
  cases s <;> rfl

/-! ## Unpacking -/

theorem unpack_zero (s : Sign) : UnpackedFloat.unpack Format.binary64 (fields s 0 0) = .zero s := by
  unfold UnpackedFloat.unpack fields
  simp only [unpackMantissa_packComponents, unpackExponent_packComponents,
    unpackSign_packComponents]
  rfl

/-- Without an exponent the fraction is the significand. -/
theorem unpack_subnormal (s : Sign) (hm : m < 2 ^ 52) (hpos : 0 < m) :
    UnpackedFloat.unpack Format.binary64 (fields s 0 m) = .finite s m (-1074) hpos := by
  have hnat : (BitVec.ofNat 52 m).toNat = m := by rw [BitVec.toNat_ofNat, Nat.mod_eq_of_lt hm]
  have hne : BitVec.ofNat 52 m ≠ 0#52 := fun h => by
    rw [h] at hnat
    exact hpos.ne hnat
  unfold UnpackedFloat.unpack fields
  simp only [unpackMantissa_packComponents, unpackExponent_packComponents,
    unpackSign_packComponents, hnat, hne]
  rfl

/-- With an exponent the significand has one leading bit more than the fraction. -/
theorem unpack_normal (s : Sign) (hm : m < 2 ^ 52) (he : 0 < e) (he' : e < 2047) :
    UnpackedFloat.unpack Format.binary64 (fields s e m) =
      .finite s (2 ^ 52 + m) (e - 1075) (by omega) := by
  have hnat : (1#1 ++ BitVec.ofNat 52 m).toNat = 2 ^ 52 + m := by
    have hrest : (BitVec.ofNat 52 m).toNat = m := by rw [BitVec.toNat_ofNat, Nat.mod_eq_of_lt hm]
    rw [BitVec.toNat_append, hrest, ← Nat.shiftLeft_add_eq_or_of_lt hm]
    rfl
  have hfield : (BitVec.ofNat 11 e).toNat = e := by
    rw [BitVec.toNat_ofNat, Nat.mod_eq_of_lt (by omega)]
  have hzero : BitVec.ofNat 11 e ≠ 0#11 := fun h => by
    rw [h] at hfield
    exact he.ne hfield
  have hones : BitVec.ofNat 11 e ≠ -1#11 := fun h => by
    rw [h] at hfield
    exact he'.ne' hfield
  unfold UnpackedFloat.unpack fields
  simp only [unpackMantissa_packComponents, unpackExponent_packComponents,
    unpackSign_packComponents, hnat, hzero, hones, hfield]
  rfl

/-! ## Packing -/

theorem pack_zero (s : Sign) : UnpackedFloat.pack Format.binary64 (.zero s) = fields s 0 0 := rfl

/-- A small significand at the least exponent is packed without its own exponent. -/
theorem pack_subnormal (s : Sign) (hm : m < 2 ^ 52) (hpos : 0 < m) :
    UnpackedFloat.pack Format.binary64 (.finite s m (-1074) hpos) = fields s 0 m := by
  have hlog : m.log2 < 52 := (Nat.log2_lt hpos.ne').2 hm
  have hbits : m.log2 + 1 ≠ Format.binary64.mantissaBits := by
    show m.log2 + 1 ≠ 53
    omega
  unfold UnpackedFloat.pack
  simp only [hbits]
  rfl

/-- A full significand is packed without its leading bit. -/
theorem pack_normal (s : Sign) (hm : m < 2 ^ 52) (he' : e < 2047) :
    UnpackedFloat.pack Format.binary64 (.finite s (2 ^ 52 + m) (e - 1075) (by omega)) =
      fields s e m := by
  have hlog : (2 ^ 52 + m).log2 = 52 := (Nat.log2_eq_iff (by omega)).2 (by omega)
  have hbits : (2 ^ 52 + m).log2 + 1 = Format.binary64.mantissaBits := by
    rw [hlog]
    rfl
  have hbias : ((e : ℤ) - 1075 + (Format.binary64.exponentBias : ℕ) +
      (Format.binary64.mantissaBitsWithoutImplicit : ℕ)).toNat = e := by
    have hexp : (Format.binary64.exponentBias : ℕ) = 1023 := rfl
    have hmant : (Format.binary64.mantissaBitsWithoutImplicit : ℕ) = 52 := rfl
    rw [hexp, hmant]
    omega
  have hrest : BitVec.ofNat 52 (2 ^ 52 + m) = BitVec.ofNat 52 m :=
    BitVec.eq_of_toNat_eq (by simp)
  have hfit : ¬ 2 ^ Format.binary64.exponentBits ≤ e + 1 := by
    show ¬ 2 ^ 11 ≤ e + 1
    omega
  unfold UnpackedFloat.pack fields
  simp only [hbits, hbias, hfit, if_true, if_false]
  rw [hrest]

/-! ## Sign -/

/-- Every finite pattern survives unpacking and packing. -/
theorem pack_unpack_fields (s : Sign) (hm : m < 2 ^ 52) (he : e < 2047) :
    UnpackedFloat.pack Format.binary64 (UnpackedFloat.unpack Format.binary64 (fields s e m)) =
      fields s e m := by
  rcases Nat.eq_zero_or_pos e with rfl | hpos
  · rcases Nat.eq_zero_or_pos m with rfl | hmpos
    · rw [unpack_zero, pack_zero]
    · rw [unpack_subnormal s hm hmpos, pack_subnormal s hm hmpos]
  · rw [unpack_normal s hm hpos he, pack_normal s hm he]

/-- The comparison with zero, on the fields of a finite double. -/
theorem zero_lt_fields_iff (s : Sign) (hm : m < 2 ^ 52) (he : e < 2047) :
    0 < Float.ofBits (.ofBitVec (fields s e m)) ↔ s = .positive ∧ (e ≠ 0 ∨ m ≠ 0) := by
  have hunpack : (Float.ofBits (.ofBitVec (fields s e m))).toModel.unpack =
      UnpackedFloat.unpack Format.binary64 (fields s e m) := by
    show UnpackedFloat.unpack Format.binary64 (UnpackedFloat.pack Format.binary64
      (UnpackedFloat.unpack Format.binary64 (fields s e m))) = _
    rw [pack_unpack_fields s hm he]
  have hzero : (0 : Float).toModel.unpack = .zero .positive := by rfl
  -- the comparison is made on what the two doubles unpack to
  have hlt : 0 < Float.ofBits (.ofBitVec (fields s e m)) ↔
      (UnpackedFloat.zero .positive).lt (UnpackedFloat.unpack Format.binary64 (fields s e m)) =
        true := by
    rw [← hunpack, ← hzero]
    show Float.lt 0 _ = true ↔ _
    unfold Float.lt
    exact decide_eq_true_iff
  rw [hlt]
  rcases Nat.eq_zero_or_pos e with rfl | hpos
  · rcases Nat.eq_zero_or_pos m with rfl | hmpos
    · rw [unpack_zero]
      cases s <;> simp [UnpackedFloat.lt, UnpackedFloat.compare]
    · rw [unpack_subnormal s hm hmpos]
      cases s <;> simp [UnpackedFloat.lt, UnpackedFloat.compare, hmpos.ne']
  · rw [unpack_normal s hm hpos he]
    cases s <;> simp [UnpackedFloat.lt, UnpackedFloat.compare, hpos.ne']

variable {n : ℕ}

/-- The bits of a finite double below the sign are its exponent and its fraction. -/
theorem ofBits_eq_fields (s : Sign) (hn : n < infiniteBits) :
    ofBits (s.toBitVec.toNat * signBit + n) =
      Float.ofBits (.ofBitVec (fields s (n / leadingBit) (n % leadingBit))) := by
  unfold infiniteBits at hn
  unfold ofBits
  congr 1
  have hfields := toNat_fields (e := n / leadingBit) (m := n % leadingBit) s
    (by unfold leadingBit; omega) (by unfold leadingBit; omega)
  have hsign : s.toBitVec.toNat < 2 := s.toBitVec.isLt
  refine UInt64.toNat_inj.1 ?_
  rw [UInt64.toNat_ofNat', UInt64.toNat_ofBitVec, hfields]
  unfold signBit leadingBit
  omega

/-- The comparison with zero, on the bits of a finite double and its sign. -/
theorem zero_lt_ofBits_iff (s : Sign) (hn : n < infiniteBits) :
    0 < ofBits (s.toBitVec.toNat * signBit + n) ↔ s = .positive ∧ n ≠ 0 := by
  rw [ofBits_eq_fields s hn, zero_lt_fields_iff s (by unfold leadingBit; omega)
    (by unfold infiniteBits at hn; unfold leadingBit; omega)]
  unfold leadingBit
  have hzero : n / 0x10000000000000 ≠ 0 ∨ n % 0x10000000000000 ≠ 0 ↔ n ≠ 0 := by omega
  rw [hzero]

end Reckoner.Binary64
