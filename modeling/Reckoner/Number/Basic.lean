/-!
# Number literals

The calculator computes with three kinds of literal: integers of any size, binary64 doubles, and
exact ratios. Integers and ratios are *exact*: they denote a rational number (`Number.toRat?`), and
every exact result goes back to a literal by `Number.ofRat`, which prefers the integer.

A ratio is a `Rat`, so it is in lowest terms with a positive denominator by construction. A ratio
that happens to be whole (`2/1`) is still a ratio: only `Number.ofRat` turns it into an integer.

The *unit* is the integer one where a rule has nothing else to write: it is the exponent of a factor
that is no power, and the value of `x ^ 0`, `1 ^ x` and the empty product. It counts as an integer,
and `Number.plain` writes it as one. Only products tell it apart, when they look whether two factors
have exponents to add.
-/

namespace Reckoner

/-- A number literal. -/
inductive Number where
  /-- An integer of any size. -/
  | integer (value : Int)
  /-- A binary64 floating-point number. -/
  | double (value : Float)
  /-- An exact ratio; its denominator may be one. -/
  | fraction (value : Rat)
  /-- The integer one where there is nothing else to write. -/
  | unit

namespace Number

/-- The literals `0`, `2` and `-1`, which the algebraic rules introduce beside the unit. -/
def zero : Number := .integer 0

@[inherit_doc zero] def two : Number := .integer 2

@[inherit_doc zero] def minusOne : Number := .integer (-1)

/-- The literal with the unit written as an integer. -/
def plain : Number → Number
  | .unit => .integer 1
  | a => a

/-- The value of an integer. -/
def toInt? : Number → Option Int
  | .integer n => some n
  | .unit => some 1
  | _ => none

/-- The unit. -/
def isUnit : Number → Bool
  | .unit => true
  | _ => false

/-! ## Exact values -/

/-- The literal of an exact value: an integer when it is whole. -/
def ofRat (q : Rat) : Number :=
  if q.den = 1 then .integer q.num else .fraction q

/-- The exact value of an integer or a ratio. -/
def toRat? : Number → Option Rat
  | .integer n => some (n : Rat)
  | .fraction q => some q
  | .double _ => none
  | .unit => some 1

/-- Exact zero. The double `0.0` does not count. -/
def isZero : Number → Bool
  | .integer n => n == 0
  | .fraction q => q.num == 0
  | .double _ => false
  | .unit => false

/-- Exact one. The double `1.0` does not count. -/
def isOne : Number → Bool
  | .integer n => n == 1
  | .fraction q => q.num == 1 && q.den == 1
  | .double _ => false
  | .unit => true

/-- A literal below zero; `-0.0` and NaN are not. -/
def isNegative : Number → Bool
  | .integer n => n < 0
  | .fraction q => q.num < 0
  | .double x => x < 0
  | .unit => false

/-- The literal with the opposite sign, for the exact kinds. -/
def negateExact? : Number → Option Number
  | .integer n => some (.integer (-n))
  | .fraction q => some (.fraction (-q))
  | .double _ => none
  | .unit => some (.integer (-1))

/-! ## Equality -/

/-- Doubles are the same when they compare equal, so `0.0` is `-0.0`; a NaN is the same as a NaN. -/
def sameDouble (x y : Float) : Bool :=
  x.toBits == y.toBits || (x.toBits <<< 1 == 0 && y.toBits <<< 1 == 0)

/-- Sameness of literals: kinds are distinct, so the integer `1` is not the double `1.0`. -/
def same (a b : Number) : Bool :=
  match a.plain, b.plain with
  | .integer m, .integer n => m == n
  | .double x, .double y => sameDouble x y
  | .fraction p, .fraction q => p == q
  | _, _ => false

@[simp] theorem isZero_zero : zero.isZero = true := rfl

@[simp] theorem isOne_unit : unit.isOne = true := rfl

/-- A literal made from an exact value has that value. -/
theorem toRat?_ofRat (q : Rat) : (ofRat q).toRat? = some q := by
  unfold ofRat
  split
  · next h => exact congrArg some (Rat.ext rfl h.symm)
  · rfl

/-- The same literal is the same as itself. -/
theorem same_refl (a : Number) : a.same a = true := by
  cases a <;> simp [same, plain, sameDouble]

end Number

end Reckoner
