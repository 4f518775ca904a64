import Reckoner.Expr.Render

/-!
# Outlines

The outline of an expression has one line for each node, indented by its depth. An operator or a
symbol is a bare name, and a number is followed by its kind.
-/

namespace Reckoner

/-- The name of a number's kind. -/
def Number.kindName : Number → String
  | .integer _ => "Integer"
  | .unit => "Integer"
  | .double _ => "Double"
  | .fraction _ => "Fraction"

namespace Expr

mutual

/-- The lines of the outline, each with `lead` before it. -/
def outlineLines (indent lead : String) : Expr → List String
  | .num n => [lead ++ n.text ++ " (" ++ n.kindName ++ ")"]
  | .sym name _ => [lead ++ name]
  | .app op ps => (lead ++ op.name) :: outlineLinesOf indent (lead ++ indent) ps

/-- The lines of the outlines of a list. -/
def outlineLinesOf (indent lead : String) : List Expr → List String
  | [] => []
  | p :: ps => p.outlineLines indent lead ++ outlineLinesOf indent lead ps

end

/-- The outline of an expression, one node a line. -/
def outline (indent : String) (e : Expr) : String :=
  "\n".intercalate (e.outlineLines indent "")

/-- The outline of an expression, if it can be written. -/
def outline? (indent : String) (e : Expr) : Except TextError String := do
  e.checkText
  return e.outline indent

/-- The indentation of a level, unless another is asked for. -/
def outlineIndent : String := "  "

end Expr

end Reckoner
