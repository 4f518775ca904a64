import Reckoner.Simplify.Fold

/-!
# The simplifier

Simplifying an application and combining two operands call each other: a merge folds a list again,
sums and products simplify exponents and coefficients, and no argument is a part of another. What
does shrink is a *weight*: a number weighs less than a symbol, an application weighs more than its
parameters together, and whatever two operands become weighs less than they did side by side. The
recursion is bounded by a depth, and `reduce` and `combine` allot a depth that the weight of their
arguments makes sufficient.
-/

namespace Reckoner

namespace Simplify

mutual

/-- Simplifies an application, within a depth of recursion. -/
def reduceWithin : Nat → Reducer
  | 0, _, _ => Logged.fail .unfinished
  | depth + 1, op, params => reduceStep (combineWithin depth op) op params

/-- Combines two operands, within a depth of recursion. -/
def combineWithin : Nat → Operator → Combiner
  | 0, _, _, _ => Logged.fail .unfinished
  | depth + 1, op, l, r => combineStep (reduceWithin depth) (combineWithin depth op) op l r

end

/-! ## Weight -/

/-- What an operator of the given name adds for each pair of neighbours among its parameters. -/
def shareOf (name : String) : Nat :=
  if name == Operator.multiply.name then 2
  else if name == Operator.power.name then 3
  else 1

mutual

/-- The weight of an expression. An application weighs as much as its parameters side by side, and
more if it has fewer than two. -/
def weight : Expr → Nat
  | .num _ => 2
  | .sym _ _ => 4
  | .app op ps => weightOfList (shareOf op.name) ps + if ps.length < 2 then 4 else 0

/-- The weight of expressions side by side, with a share for each pair of neighbours. -/
def weightOfList (share : Nat) : List Expr → Nat
  | [] => 0
  | p :: ps => weight p + (if ps.isEmpty then 0 else share) + weightOfList share ps

end

/-- A depth that suffices for an application to the given parameters. -/
def depthFor (op : Operator) (params : List Expr) : Nat :=
  2 * weightOfList (shareOf op.name) params + 2

/-- Simplifies the application of an operator to simplified parameters. -/
def reduce (op : Operator) (params : List Expr) : Logged Expr :=
  reduceWithin (depthFor op params) op params

/-- Combines two operands of an operator, if it makes anything of them. -/
def combine (op : Operator) (l r : Expr) : Logged (Option Expr) :=
  combineWithin (depthFor op [l, r]) op l r

/-- Regroups an operand into the parameters of an application. -/
def absorbInto (op : Operator) (params : List Expr) (operand : Expr) : Logged (Option Expr) :=
  let depth := depthFor op (operand :: params)
  absorb (reduceWithin depth) (combineWithin depth op) op params operand

end Simplify

end Reckoner
