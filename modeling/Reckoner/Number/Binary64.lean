import Reckoner.Number.Basic

/-!
# Binary64 doubles, by their bits

A finite double is `significand * 2 ^ exponent` for natural numbers read off its bits. In the other
direction, `nearestBits` gives the bits of the double nearest to an exact quotient, a tie going to
the even significand; it serves decimal numerals, integers and ratios alike, down to the subnormal
numbers and up to the first magnitude that has no finite double.
-/

namespace Reckoner.Binary64

/-- The bits of a double, as a natural number. -/
def bits (x : Float) : Nat := x.toBits.toNat

/-- The double of a bit pattern. -/
def ofBits (b : Nat) : Float := Float.ofBits (UInt64.ofNat b)

/-- The sign bit, `2 ^ 63`. -/
def signBit : Nat := 0x8000000000000000

/-- The leading bit of a normal significand, `2 ^ 52`: the first one that is not stored. -/
def leadingBit : Nat := 0x10000000000000

/-- The magnitude bits of an infinite double. -/
def infiniteBits : Nat := 0x7ff0000000000000

/-- The sign bit is set; it is for `-0.0`. -/
def isNegative (x : Float) : Bool := signBit ≤ bits x

/-- The bits without the sign. -/
def magnitude (x : Float) : Nat := bits x % signBit

/-- A finite double as `significand * 2 ^ exponent`, apart from its sign. -/
structure Parts where
  /-- Below `2 * leadingBit`; at least `leadingBit` unless the double is subnormal. -/
  significand : Nat
  /-- The weight of the last bit. -/
  exponent : Int

/-- The parts that the magnitude bits of a finite double stand for. -/
def Parts.ofMagnitude (b : Nat) : Parts :=
  let field : Nat := b / leadingBit
  let rest : Nat := b % leadingBit
  if field = 0 then ⟨rest, -1074⟩ else ⟨leadingBit + rest, (field : Int) - 1075⟩

/-! ## Rounding an exact quotient -/

/-- The quotient rounded to nearest, a tie to even. -/
def roundDiv (num den : Nat) : Nat :=
  let q := num / den
  let r := num % den
  if 2 * r < den then q
  else if den < 2 * r then q + 1
  else if q % 2 = 0 then q else q + 1

/-- `num / (den * 2 ^ e)` as a pair of natural numbers. -/
def scaled (num den : Nat) (e : Int) : Nat × Nat :=
  if e < 0 then (num * Nat.pow 2 (-e).toNat, den) else (num, den * Nat.pow 2 e.toNat)

/-- Magnitude bits of a significand at an exponent. A normal significand brings its leading bit,
which raises the exponent field by one; one that was rounded up to twice that bit carries into
it. -/
def packed (significand : Nat) (e : Int) : Nat := (e + 1074).toNat * leadingBit + significand

/-- Magnitude bits of the double nearest to `num / den`; at least `infiniteBits` when the quotient
is beyond the finite doubles. -/
def nearestBits (num den : Nat) : Nat :=
  if num = 0 then 0
  else
    let e := max ((num.log2 : Int) - den.log2 - 53) (-1074)
    let (n, d) := scaled num den e
    if n / d < 2 * leadingBit then packed (roundDiv n d) e
    else
      let (n, d) := scaled num den (e + 1)
      packed (roundDiv n d) (e + 1)

/-- The finite double nearest to `± num / den`, if there is one. -/
def ofQuotient? (negative : Bool) (num den : Nat) : Option Float :=
  let b := nearestBits num den
  if b < infiniteBits then some (ofBits (if negative then signBit + b else b)) else none

/-- The double nearest to `num / den`, infinite beyond the finite range. -/
def ofQuotient (num den : Nat) : Float :=
  ofBits (min (nearestBits num den) infiniteBits)

end Reckoner.Binary64

namespace Reckoner.Number

/-- The double nearest to a number; an exact number beyond the finite doubles has none. -/
def toFloat? : Number → Option Float
  | .integer n => Binary64.ofQuotient? (n < 0) n.natAbs 1
  | .double x => some x
  | .fraction q => Binary64.ofQuotient? (q.num < 0) q.num.natAbs q.den
  | .unit => some 1

end Reckoner.Number
