import Reckoner.Expr.Shape
import Reckoner.Number.Power
import Reckoner.Simplify.Logged

/-!
# Rules for two operands

What an operator makes of two operands, where it makes anything of them at all. Two numbers of one
kind are computed. For any other pair the operator has structural rules, tried in order; they may
simplify the pieces of the operands again, by this or another operator, and so they are given the
simplifier of applications as an argument.

* A product: `0 * x = 0`, `1 * x = x`, numbers of different kinds are promoted, `x * x = x ^ 2`, and
  powers of one base add their exponents, unless both exponents are the unit.
* A sum: `0 + x = x`, numbers are promoted, `x + x = 2 * x`, and like terms add their coefficients.
* A power: `x ^ 0 = 1`, `x ^ 1 = x`, `1 ^ x = 1`, `0 ^ n = 0` for a positive number, numbers are
  promoted, and `(x ^ a) ^ n = x ^ (a * n)` for an integer `n`.
-/

namespace Reckoner

/-- Simplifies the application of an operator to operands that are simplified already. -/
abbrev Reducer := Operator → List Expr → Logged Expr

/-- What becomes of two operands; nothing, if they stay side by side. -/
abbrev Combiner := Expr → Expr → Logged (Option Expr)

namespace Simplify

/-! ## Numbers -/

/-- A power of two numbers of one kind; a double that is out of reach is noted in the trace. -/
def powerOfNumbers (a b : Number) : Logged (Option Expr) :=
  match a.powAlike b with
  | .ok r => return r.map .num
  | .error obstacle =>
    match a, b, obstacle.reason? with
    | .double x, .double y, some reason => do
      Logged.note (.unreduced x y reason)
      return none
    | _, _, _ => return none

/-- Two numbers of one kind, for a built-in operator. -/
def combineNumbers (op : Operator) (a b : Number) : Logged (Option Expr) :=
  match op with
  | .add => return (a.addAlike? b).map .num
  | .multiply => return (a.mulAlike? b).map .num
  | .power => powerOfNumbers a b
  | _ => return none

/-- Two numbers of different kinds: both are brought to one kind first. -/
def combinePromoted (op : Operator) (a b : Number) : Logged (Option Expr) := do
  let (a, b) ← Logged.ofDouble? (a.promote? b)
  combineNumbers op a b

/-! ## Structural rules -/

/-- The rules of a product. -/
def combineFactors (reduce : Reducer) (l r : Expr) : Logged (Option Expr) :=
  if l.isZero || r.isZero then return some (.num .zero)
  else if l.isOne then return some r
  else if r.isOne then return some l
  else
    match l, r with
    | .num a, .num b => combinePromoted .multiply a b
    | l, r =>
      if l.same r then return some (← reduce .power [l, .num .two])
      else
        let (base, m) := l.powerParts
        let (base', n) := r.powerParts
        if base.same base' && !(m.isUnit && n.isUnit) then do
          let exponent ← reduce .add [m, n]
          return some (← reduce .power [base, exponent])
        else return none

/-- The rules of a sum. -/
def combineTerms (reduce : Reducer) (l r : Expr) : Logged (Option Expr) :=
  if l.isZero then return some r
  else if r.isZero then return some l
  else
    match l, r with
    | .num a, .num b => combinePromoted .add a b
    | l, r =>
      if l.same r then return some (← reduce .multiply [.num .two, l])
      else
        match l.coefficient?, r.coefficient? with
        | some (a, term), some (b, term') =>
          if term.same term' then do
            let coefficient ← reduce .add [.num a, .num b]
            return some (← reduce .multiply [coefficient, term])
          else return none
        | _, _ => return none

/-- A zero base and an exponent, both numbers of different kinds. -/
def zeroToPower (a b : Number) : Logged (Option Expr) := do
  let exponent ← Logged.ofDouble? b.toFloat?
  if 0 < exponent then return some (.num .zero) else combinePromoted .power a b

/-- The rules of a power. -/
def combinePower (reduce : Reducer) (base exponent : Expr) : Logged (Option Expr) :=
  if exponent.isZero then return some (.num .unit)
  else if exponent.isOne then return some base
  else if base.isOne then return some (.num .unit)
  else
    match base, exponent with
    | .num a, .num b => if a.isZero then zeroToPower a b else combinePromoted .power a b
    | base, exponent =>
      match base.asPower? with
      | some (inner, m) =>
        if exponent.isInteger then do
          let product ← reduce .multiply [m, exponent]
          return some (← reduce .power [inner, product])
        else return none
      | none => return none

/-! ## Extensions -/

/-- The larger of two numbers, the left one when they are equal or not comparable from below. -/
def largerOf (l r : Expr) : Logged (Option Expr) :=
  match l, r with
  | .num a, .num b => do
    let x ← Logged.ofDouble? a.toFloat?
    let y ← Logged.ofDouble? b.toFloat?
    return some (if y ≤ x then l else r)
  | _, _ => return none

/-- What an extension operator makes of a pair. -/
def combineByRule (rule : PairRule) (l r : Expr) : Logged (Option Expr) :=
  match rule with
  | .keep => return none
  | .larger => largerOf l r
  | .sumIntegers => do
    Logged.note (.asked (.of l r) l r)
    match l.toInt?, r.toInt? with
    | some m, some n => return some (.int (m + n))
    | _, _ => return none

/-! ## All operators -/

/-- What an operator makes of two operands that are not numbers of one kind. -/
def combineObjects (reduce : Reducer) (op : Operator) (l r : Expr) : Logged (Option Expr) :=
  match op with
  | .add => combineTerms reduce l r
  | .multiply => combineFactors reduce l r
  | .power => combinePower reduce l r
  | .define _ => return none
  | .extension e =>
    match e.fold with
    | some fold => combineByRule fold.pair l r
    | none => return none

/-- What an operator makes of two operands by themselves, without regrouping. -/
def combineAlone (reduce : Reducer) (op : Operator) (l r : Expr) : Logged (Option Expr) :=
  match l, r with
  | .num a, .num b =>
    match op with
    | .extension _ => combineObjects reduce op l r
    | _ => if a.sameKind b then combineNumbers op a b else combineObjects reduce op l r
  | l, r => combineObjects reduce op l r

end Simplify

end Reckoner
