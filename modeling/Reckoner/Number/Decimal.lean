import Reckoner.Number.Binary64

/-!
# Decimal text of numbers

A double is written with the fewest significant digits that read back as the same double; of the
digit strings of that length the nearest one is taken, and an exact tie goes to the even digit.
`shortest` finds the digits in exact arithmetic: it asks, for one digit, two digits and so on,
whether a neighbour of the value on that decimal grid lies in the interval of numbers that round
to the double.

Two layouts use these digits. The *positional* one never has an exponent, so that the calculator can
read its own output; the *compact* one switches to an exponent for very large and very small
values and is used where a tree is shown constructor by constructor.
-/

namespace Reckoner

/-- Decimal digits of a natural number, as text. -/
def decimalNat (n : Nat) : String := Nat.repr n

/-- Decimal text of an integer. -/
def decimalInt (n : Int) : String :=
  if n < 0 then "-" ++ decimalNat n.natAbs else decimalNat n.natAbs

/-- Integers of more digits than this have no decimal text. -/
def maxDecimalDigits : Nat := 4300

/-- The integer has at most `maxDecimalDigits` digits. -/
def hasDecimal (n : Int) : Bool := n.natAbs < Nat.pow 10 maxDecimalDigits

namespace Decimal

/-- Digits `d₁ … dₙ` and a point position `p`, for the value `0.d₁…dₙ * 10 ^ p`. -/
structure Digits where
  /-- The significant digits; the last one is not zero, unless it is the only one. -/
  digits : List Char
  /-- Where the decimal point stands, counted from the first digit. -/
  point : Int

/-! ## Shortest digits -/

/-- The numbers that round to a double, with the double itself, over a common denominator. -/
structure Interval where
  /-- Numerator of the lower end. -/
  low : Nat
  /-- Numerator of the double. -/
  mid : Nat
  /-- Numerator of the upper end. -/
  high : Nat
  /-- The common denominator. -/
  den : Nat
  /-- Both ends belong to the interval. -/
  closed : Bool

/-- The interval of a positive double: half a unit in the last place each way, but only a quarter
below a power of two, where the doubles are denser. The ends round to the even significand. -/
def Interval.ofParts (p : Binary64.Parts) : Interval :=
  let gap := if p.significand = Binary64.leadingBit && decide (-1074 < p.exponent) then 1 else 2
  let e := p.exponent - 2
  let up := Nat.pow 2 e.toNat
  { low := (4 * p.significand - gap) * up
    mid := 4 * p.significand * up
    high := (4 * p.significand + 2) * up
    den := Nat.pow 2 (-e).toNat
    closed := p.significand % 2 = 0 }

/-- The interval seen on the grid of the multiples of `10 ^ k`: its numbers divided by `10 ^ k`. -/
def Interval.onGrid (i : Interval) (k : Int) : Interval :=
  if k < 0 then
    let s := Nat.pow 10 (-k).toNat
    { i with low := i.low * s, mid := i.mid * s, high := i.high * s }
  else { i with den := i.den * Nat.pow 10 k.toNat }

/-- Membership of a whole number. -/
def Interval.contains (i : Interval) (n : Nat) : Bool :=
  let v := n * i.den
  if i.closed then i.low ≤ v && v ≤ i.high else i.low < v && v < i.high

/-- Of the two whole numbers around the middle, the one in the interval; the nearer one if both
are, and the even one if they are equally near. -/
def Interval.neighbour? (i : Interval) : Option Nat :=
  let q := i.mid / i.den
  match i.contains q, i.contains (q + 1) with
  | false, false => none
  | true, false => some q
  | false, true => some (q + 1)
  | true, true => some (Binary64.roundDiv i.mid i.den)

/-- Position of the decimal point of a positive quotient: the `p` with `10 ^ (p - 1) ≤ v < 10 ^ p`.
The binary logarithm gives it up to one or two. -/
def pointPosition (num den : Nat) : Int :=
  let estimate := ((num.log2 : Int) - den.log2 - 1) * 30103 / 100000 - 1
  let below (p : Int) : Bool := num * Nat.pow 10 (-p).toNat < den * Nat.pow 10 p.toNat
  let candidates := (List.range 4).map fun (j : Nat) => estimate + j
  (candidates.find? below).getD (estimate + 4)

/-- The whole number `n`, of which the last place stands for `10 ^ k`, without trailing zeros. -/
def Digits.ofNat (n : Nat) (k : Int) : Digits :=
  let ds := Nat.toDigits 10 n
  let kept := (ds.reverse.dropWhile (· == '0')).reverse
  { digits := if kept.isEmpty then ['0'] else kept, point := k + ds.length }

/-- The shortest digits of a positive double; seventeen always suffice. -/
def shortest (p : Binary64.Parts) : Digits :=
  let i := Interval.ofParts p
  let point := pointPosition i.mid i.den
  let atLength (n : Nat) : Option Digits :=
    let k := point - (n + 1 : Nat)
    (i.onGrid k).neighbour?.map (Digits.ofNat · k)
  match (List.range 17).findSome? atLength with
  | some d => d
  | none =>
    let g := i.onGrid (point - 17)
    Digits.ofNat (Binary64.roundDiv g.mid g.den) (point - 17)

/-! ## Layouts -/

/-- Zeros as digits. -/
def zeros (n : Nat) : List Char := List.replicate n '0'

/-- Without an exponent, with at least one digit on either side of the point. -/
def Digits.positional (d : Digits) : List Char :=
  if d.point ≤ 0 then '0' :: '.' :: zeros (-d.point).toNat ++ d.digits
  else
    let n := d.point.toNat
    if d.digits.length ≤ n then d.digits ++ zeros (n - d.digits.length) ++ ['.', '0']
    else d.digits.take n ++ '.' :: d.digits.drop n

/-- An exponent with its sign and at least two digits. -/
def exponentText (e : Int) : List Char :=
  let ds := Nat.toDigits 10 e.natAbs
  (if e < 0 then '-' else '+') :: zeros (2 - ds.length) ++ ds

/-- One digit before the point, and an exponent. -/
def Digits.scientific (d : Digits) : List Char :=
  let fraction := d.digits.drop 1
  d.digits.take 1 ++ (if fraction.isEmpty then [] else '.' :: fraction) ++
    'e' :: exponentText (d.point - 1)

/-- Positional from `10 ^ -4` up to below `10 ^ 16`, otherwise with an exponent. -/
def Digits.compact (d : Digits) : List Char :=
  if -4 < d.point && d.point ≤ 16 then d.positional else d.scientific

/-- Text of a double whose finite nonzero magnitudes are laid out by `layout`. -/
def ofDouble (layout : Digits → List Char) (x : Float) : String :=
  let m := Binary64.magnitude x
  if Binary64.infiniteBits < m then "nan"
  else
    let body :=
      if m = Binary64.infiniteBits then ['i', 'n', 'f']
      else if m = 0 then ['0', '.', '0']
      else layout (shortest (.ofMagnitude m))
    String.ofList (if Binary64.isNegative x then '-' :: body else body)

end Decimal

/-- Text of a double without an exponent, so that it can be read back as a numeral. -/
def positionalDouble (x : Float) : String := Decimal.ofDouble Decimal.Digits.positional x

/-- Text of a double that may have an exponent. -/
def compactDouble (x : Float) : String := Decimal.ofDouble Decimal.Digits.compact x

namespace Number

/-- Decimal text: an integer, a double without exponent, or `n/d`. -/
def text : Number → String
  | .integer n => decimalInt n
  | .double x => positionalDouble x
  | .fraction q => decimalInt q.num ++ "/" ++ decimalNat q.den
  | .unit => decimalInt 1

/-- The literal has a decimal text: none of its integers is too long. -/
def hasText : Number → Bool
  | .integer n => hasDecimal n
  | .double _ => true
  | .fraction q => hasDecimal q.num && hasDecimal q.den
  | .unit => true

end Number

end Reckoner
