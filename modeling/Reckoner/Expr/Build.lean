import Reckoner.Expr.Notation

/-!
# Building expressions from given parts

A ratio needs a denominator other than zero, and only the name of an operator can be applied.
-/

namespace Reckoner

/-- Why an expression cannot be built. -/
inductive BuildError where
  /-- The denominator of a ratio is zero. -/
  | zeroDenominator (numerator : Int)
  /-- The head of an application is not the name of an operator. -/
  | headNotOperator (head : Expr)

/-- The error as it is reported. -/
def BuildError.message : BuildError → String
  | zeroDenominator n => "Fraction(" ++ decimalInt n ++ ", 0)"
  | headNotOperator head => "Function head " ++ head.construction ++ " has no evaluator"

/-- The exact quotient of two integers. -/
def quotient? (numerator denominator : Int) : Except BuildError Rat :=
  if denominator = 0 then .error (.zeroDenominator numerator)
  else .ok (Rat.divInt numerator denominator)

/-- A ratio literal in lowest terms, even if it is whole. -/
def Number.fraction? (numerator denominator : Int) : Except BuildError Number :=
  (quotient? numerator denominator).map .fraction

/-- The literal of an exact quotient: an integer if it is whole. -/
def Number.rational? (numerator denominator : Int) : Except BuildError Number :=
  (quotient? numerator denominator).map .ofRat

/-- The application of what an expression names. -/
def Expr.apply? (head : Expr) (params : List Expr) : Except BuildError Expr :=
  match head with
  | .sym _ (.operator op) => .ok (.app op params)
  | head => .error (.headNotOperator head)

/-- The operator of an application. -/
def Expr.operator? : Expr → Option Operator
  | .app op _ => some op
  | _ => none

end Reckoner
