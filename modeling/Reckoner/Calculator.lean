import Reckoner.Evaluate

/-!
# Calculators

A calculator reads, evaluates and writes expressions against one registry. Two calculators may share
a registry. The outcome of an evaluation that goes too deep is an error of the calculator; other
faults pass through it.
-/

namespace Reckoner

/-- A calculator, by the registry that it works against. -/
structure Calculator where
  /-- The registry. -/
  store : StoreId
  deriving DecidableEq

namespace Calculator

/-- Reads a text without evaluating it. -/
def read (c : Calculator) (text : String) : Calculation Expr := do
  let r ← Calculation.registry c.store
  let e ← Calculation.ofExcept .reading ((r.scope c.store).read text)
  Calculation.note (.read text e)
  return e

/-- Evaluation that is too deep, as an error. -/
def evaluationError : CalculationError → CalculationError
  | .fault .tooDeep => .tooDeepToEvaluate
  | e => e

/-- Evaluates an expression. -/
def evaluate (_ : Calculator) (e : Expr) : Calculation Expr := do
  let value ← e.evaluate.mapError evaluationError
  Calculation.note (.evaluated e value)
  return value

/-- Reads and evaluates a text. -/
def calculate (c : Calculator) (text : String) : Calculation Expr := do
  c.evaluate (← c.read text)

/-- Binds a name to the value of a text. -/
def define (c : Calculator) (name text : String) : Calculation Expr := do
  let value ← c.calculate text
  Expr.assign c.store name value
  return value

/-- Removes a variable; the answer is whether there was one. -/
def undefine (c : Calculator) (name : String) : Calculation Bool := do
  let r ← Calculation.registry c.store
  if r.bindings.contains name then
    Calculation.put c.store (r.undefine name)
    Calculation.note (.undefined name)
    return true
  else return false

/-- Removes all variables. -/
def clear (c : Calculator) : Calculation Unit := do
  let r ← Calculation.registry c.store
  Calculation.put c.store r.clear
  Calculation.note .cleared

/-- The error behind an expression that cannot be written. -/
def renderError : Expr.TextError → CalculationError
  | .tooDeep => .tooDeepToRender
  | .tooLong => .fault .tooLong

/-- Writes an expression. -/
def render (_ : Calculator) (e : Expr) : Calculation String :=
  Calculation.ofExcept renderError e.render

/-- The variables in the order of their names. -/
def bindings (c : Calculator) : Calculation (List (String × Expr)) := do
  return (← Calculation.registry c.store).bindings.sorted

/-- The names of the operators in order. -/
def operatorNames (c : Calculator) : Calculation (List String) := do
  return (← Calculation.registry c.store).operators.names

end Calculator

end Reckoner
