import Reckoner.Expr.Basic

/-!
# Shapes that the rules look for

Every expression is a power: `x ^ n` splits into `(x, n)` and anything else into itself and `1`.
Every expression but a number is a multiple: `3 * x * y` splits into `(3, x * y)` and a term without
a leading number into `1` and itself. These two splittings are what sums and products compare when
they look for operands to merge.
-/

namespace Reckoner.Expr

/-- Base and exponent of a power with exactly one exponent. -/
def asPower? : Expr → Option (Expr × Expr)
  | .app op [b, e] => if op.name == Operator.power.name then some (b, e) else none
  | _ => none

/-- Base and exponent of any expression; the exponent is the unit unless it is a power. -/
def powerParts (e : Expr) : Expr × Expr := e.asPower?.getD (e, .num .unit)

/-- The unit, as an exponent. -/
def isUnit : Expr → Bool
  | .num n => n.isUnit
  | _ => false

/-- The base of a reciprocal `b ^ -1`. -/
def reciprocalBase? (e : Expr) : Option Expr :=
  match e.asPower? with
  | some (b, n) => if n.same (.num .minusOne) then some b else none
  | none => none

/-- Coefficient and rest of a term; a number has none. -/
def coefficient? : Expr → Option (Number × Expr)
  | .num _ => none
  | .app op (.num c :: p :: ps) =>
    if op.name == Operator.multiply.name then
      some (c, if ps.isEmpty then p else .app .multiply (p :: ps))
    else some (.unit, .app op (.num c :: p :: ps))
  | e => some (.unit, e)

end Reckoner.Expr
