import Reckoner.Expr.Outline
import Reckoner.Text.Quoted

/-!
# Constructor notation

The log shows a tree as the constructor calls that would build it, such as
`Function(head=Symbol(name='ADD'), params=(Integer(value=1),))`. Doubles take the compact layout,
and a list of one parameter keeps its comma.
-/

namespace Reckoner

/-- A number as a constructor call. -/
def Number.construction : Number → String
  | .integer n => "Integer(value=" ++ decimalInt n ++ ")"
  | .unit => "Integer(value=1)"
  | .double x => "Double(value=" ++ compactDouble x ++ ")"
  | .fraction q =>
    "Fraction(numerator=" ++ decimalInt q.num ++ ", denominator=" ++ decimalNat q.den ++ ")"

namespace Expr

/-- A symbol as a constructor call. -/
def symbolConstruction (name : String) : String := "Symbol(name=" ++ Text.quoted name ++ ")"

/-- The parameters of an application, already written. -/
def parameterList (ps : List String) : String :=
  match ps with
  | [p] => "(" ++ p ++ ",)"
  | ps => "(" ++ ", ".intercalate ps ++ ")"

mutual

/-- An expression as constructor calls. -/
def construction : Expr → String
  | .num n => n.construction
  | .sym name _ => symbolConstruction name
  | .app op ps =>
    "Function(head=" ++ symbolConstruction op.name ++ ", params=" ++
      parameterList (constructions ps) ++ ")"

/-- The expressions of a list as constructor calls. -/
def constructions : List Expr → List String
  | [] => []
  | p :: ps => p.construction :: constructions ps

end

/-- An expression as constructor calls, if it can be written. -/
def construction? (e : Expr) : Except TextError String := do
  e.checkText
  return e.construction

end Expr

end Reckoner
