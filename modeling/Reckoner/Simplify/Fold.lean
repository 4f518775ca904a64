import Reckoner.Simplify.Rules

/-!
# Folding operands

An application is simplified by folding a step on two operands over its parameters: the running
result and the next operand are combined, or else kept side by side. An associative operator first
splices nested applications of itself into one list, and when an operand does not combine with the
running result as a whole, it is tried against the parameters of that result one by one. Where it
merges with one of them, the whole list is folded again, since the new value may meet the others:
`2 * x` times `x` becomes `2 * x ^ 2`, and `3 * x` times `0` becomes `0`.
-/

namespace Reckoner.Simplify

/-! ## Flattening -/

mutual

/-- The operands that an expression contributes to an application of the named operator. -/
def splice (name : String) : Expr → List Expr
  | .app op ps => if op.name == name then flatten name ps else [.app op ps]
  | e => [e]

/-- Splices nested applications of the named operator into one list. -/
def flatten (name : String) : List Expr → List Expr
  | [] => []
  | p :: ps => splice name p ++ flatten name ps

end

/-! ## One step -/

/-- Keeps two operands side by side; an associative operator appends to its own application. -/
def join (op : Operator) (l r : Expr) : Expr :=
  match l with
  | .app head ps =>
    if op.isAssociative && head.name == op.name then .app head (ps ++ [r]) else .app op [l, r]
  | l => .app op [l, r]

/-- Merges an operand with the first of some parameters that it combines with. -/
def merge (combine : Combiner) (operand : Expr) : List Expr → Logged (Option (List Expr))
  | [] => return none
  | p :: ps => do
    match ← combine p operand with
    | some merged => return some (merged :: ps)
    | none => return (← merge combine operand ps).map (p :: ·)

/-- Regroups an operand into the parameters of an application, and folds them again. -/
def absorb (reduce : Reducer) (combine : Combiner) (op : Operator) (params : List Expr)
    (operand : Expr) : Logged (Option Expr) := do
  match ← merge combine operand params with
  | some ps => return some (← reduce op ps)
  | none => return none

/-- The step on two operands: the operator's own rules, and regrouping after them. -/
def combineStep (reduce : Reducer) (combine : Combiner) (op : Operator) (l r : Expr) :
    Logged (Option Expr) := do
  match ← combineAlone reduce op l r with
  | some e => return some e
  | none =>
    match l with
    | .app head ps =>
      if op.isAssociative && head.name == op.name then absorb reduce combine op ps r
      else return none
    | _ => return none

/-! ## The fold -/

/-- Folds operands into a running result, noting every pair that combines. -/
def foldOperands (combine : Combiner) (op : Operator) (running : Expr) :
    List Expr → Logged Expr
  | [] => return running
  | operand :: rest => do
    match ← combine running operand with
    | some e =>
      Logged.note (.step op running operand e)
      foldOperands combine op e rest
    | none => foldOperands combine op (join op running operand) rest

/-- The application of an operator to nothing. -/
def emptyApplication (op : Operator) : Expr :=
  match op with
  | .add => .num .zero
  | .multiply => .num .unit
  | op => .app op []

/-- Moves numbers to the front of a product that does not start with one. -/
def coefficientFirst : Expr → Expr
  | .app op (p :: ps) =>
    if op.name == Operator.multiply.name && !p.isNumber && ps.any Expr.isNumber then
      .app .multiply (ps.filter Expr.isNumber ++ p :: ps.filter (!·.isNumber))
    else .app op (p :: ps)
  | e => e

/-- A product of no factors that was not simplified. -/
def isEmptyProduct : Expr → Bool
  | .app op [] => op.name == Operator.multiply.name
  | _ => false

/-- The last touch on the result of a fold. What comes out of a product has to have a first factor,
if it is a product itself. -/
def finish (op : Operator) (e : Expr) : Logged Expr :=
  match op with
  | .multiply => if isEmptyProduct e then Logged.fail .emptyProduct else return coefficientFirst e
  | _ => return e

/-- Simplifies an application whose parameters are simplified. -/
def reduceStep (combine : Combiner) (op : Operator) (params : List Expr) : Logged Expr :=
  if op.folds then
    match if op.isAssociative then flatten op.name params else params with
    | [] => return emptyApplication op
    | p :: ps => do finish op (← foldOperands combine op p ps)
  else return .app op params

end Reckoner.Simplify
