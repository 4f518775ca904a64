import Reckoner.Number.Arithmetic

/-!
# Powers of literals

A power of exact numbers with a whole exponent is exact, if it is defined and not too large: a power
whose size estimate exceeds `maxExactBits` stays as it is written. A power of doubles is the
nearest double of the real power; it has no answer where that power is not real, not finite or
divides by zero, and `PowerObstacle` says which of these is worth a word in the log.
-/

namespace Reckoner.Number

/-- Exact powers that would need more bits than this are left alone. -/
def maxExactBits : Nat := 10000

/-- Bits needed to write a natural number; none for zero. -/
def bitLength (n : Nat) : Nat := if n = 0 then 0 else n.log2 + 1

/-- The power may need more than `maxExactBits` bits, by the bits of its base. -/
def powerTooLarge (base : Nat) (exponent : Int) : Bool :=
  1 < base && maxExactBits < exponent.natAbs * bitLength base

/-- `b ^ n`, which for a base of at most one in magnitude only depends on whether `n` is zero, even
or odd; this way the exponent may be of any size. -/
def intPower (b : Int) (n : Nat) : Int :=
  if b.natAbs ≤ 1 then
    if n = 0 then 1 else if n % 2 = 0 then b * b else b
  else Int.pow b n

/-- One more factor changes the parity of the exponent. -/
theorem intPower_succ (b : Int) (n : Nat) : intPower b (n + 1) = intPower b n * b := by
  unfold intPower
  split
  · next h =>
    have hb : b = 0 ∨ b = 1 ∨ b = -1 := by omega
    rcases Nat.mod_two_eq_zero_or_one n with hn | hn
    · have hs : (n + 1) % 2 ≠ 0 := by omega
      rcases hb with rfl | rfl | rfl <;> by_cases h0 : n = 0 <;> simp [h0, hn, hs]
    · have hs : (n + 1) % 2 = 0 := by omega
      have h0 : n ≠ 0 := by omega
      rcases hb with rfl | rfl | rfl <;> simp [h0, hn, hs]
  · exact Int.pow_succ b n

/-- The shortcut for small bases does not change the power. -/
theorem intPower_eq (b : Int) (n : Nat) : intPower b n = Int.pow b n := by
  induction n with
  | zero =>
    have hp : Int.pow b 0 = 1 := Int.pow_zero b
    rw [hp]
    unfold intPower
    split
    · rfl
    · exact hp
  | succ n ih =>
    rw [intPower_succ, ih]
    exact (Int.pow_succ b n).symm

/-- `b ^ e` for a nonzero `b` or an exponent that is not negative. -/
def exactPower (b : Rat) (e : Int) : Rat :=
  if 0 ≤ e then Rat.divInt (intPower b.num e.toNat) (intPower b.den e.toNat)
  else Rat.divInt (intPower b.den (-e).toNat) (intPower b.num (-e).toNat)

/-- The exact power, unless it is undefined or too large. -/
def exactPower? (b : Rat) (e : Int) : Option Number :=
  if b.num = 0 && decide (e < 0) then none
  else if powerTooLarge b.num.natAbs e || powerTooLarge b.den e then none
  else some (ofRat (exactPower b e))

/-- Why a power of doubles has no double value. -/
inductive PowerObstacle where
  /-- The result is beyond the finite doubles. -/
  | outOfRange
  /-- Zero to a negative power. -/
  | zeroToNegative
  /-- The result is complex and its magnitude is beyond the finite doubles. -/
  | complexOutOfRange
  /-- The result is complex. -/
  | complex

/-- What the log says about an obstacle; complex results are passed over in silence. -/
def PowerObstacle.reason? : PowerObstacle → Option String
  | .outOfRange => some "(34, 'Numerical result out of range')"
  | .zeroToNegative => some "0.0 cannot be raised to a negative power"
  | .complexOutOfRange => some "complex exponentiation"
  | .complex => none

/-- The double is an odd whole number. -/
def isOddWhole (x : Float) : Bool :=
  let a := x.abs
  a - 2 * (a / 2).floor == 1

/-- The magnitude of an infinite double to a finite, nonzero power. -/
def infinitePower (b e : Float) : Float :=
  if 0 < e then (if isOddWhole e then b else b.abs)
  else if isOddWhole e && b < 0 then -0.0
  else 0.0

/-- A positive finite double to a finite power. -/
def positivePower (b e : Float) : Except PowerObstacle Float :=
  let r := b.pow e
  if r.isInf then .error .outOfRange else .ok r

/-- A power of doubles. Anything to the power zero is one, and so is one to any power; otherwise a
NaN gives a NaN. -/
def doublePower (b e : Float) : Except PowerObstacle Float :=
  if e == 0 then .ok 1
  else if b.isNaN then .ok b
  else if e.isNaN then .ok (if b == 1 then 1 else e)
  else if e.isInf then
    if b.abs == 1 then .ok 1
    else if decide (0 < e) == decide (1 < b.abs) then .ok e.abs
    else .ok 0
  else if b.isInf then .ok (infinitePower b e)
  else if b == 0 then
    if e < 0 then .error .zeroToNegative else .ok (if isOddWhole e then b else 0)
  else if b < 0 then
    if e != e.floor then
      match positivePower b.abs e with
      | .ok _ => .error .complex
      | .error _ => .error .complexOutOfRange
    else do
      let r ← if b == -1 then .ok 1 else positivePower b.abs e
      return if isOddWhole e then -r else r
  else if b == 1 then .ok 1
  else positivePower b e

/-- The power of two literals of one kind, `none` where it stays as it is written. For a ratio the
exponent has to be whole. -/
def powAlike (a b : Number) : Except PowerObstacle (Option Number) :=
  match a.plain, b.plain with
  | .integer m, .integer n => .ok (exactPower? m n)
  | .double x, .double y => (doublePower x y).map fun z => some (.double z)
  | .fraction p, .fraction q => .ok (if q.den = 1 then exactPower? p q.num else none)
  | _, _ => .ok none

end Reckoner.Number
