import Reckoner.Expr.Shape
import Reckoner.Number.Decimal

/-!
# Text of expressions

An expression is written with its operators between their operands and as few parentheses as its
precedences ask for; an application with fewer than two parameters is written as a call. Negation
and division come back in the text: a product that starts with `-1` starts with a minus sign, a
reciprocal after another factor follows a slash, and a term that starts with a minus sign is not
preceded by a plus.

Rendering works bottom up. A `Piece` is a node with its text already made, and the functions that
join the operands of one operator see only pieces.
-/

namespace Reckoner

namespace Expr

/-- A node with its text, and the text of its first parameter. -/
structure Piece where
  /-- The node. -/
  node : Expr
  /-- Its text. -/
  text : String
  /-- The text of its first parameter, if it is an application with parameters. -/
  firstText : String

/-- The text of an operand of an operator that binds with `precedence`: in parentheses if it binds
more loosely, and when `strict` also if it binds equally. -/
def operandText (precedence : Nat) (strict : Bool) (operand : Expr) (text : String) : String :=
  if operand.precedence < precedence || (strict && operand.precedence == precedence) then
    "(" ++ text ++ ")"
  else text

/-- The text of a piece as an operand. -/
def Piece.operand (p : Piece) (precedence : Nat) (strict : Bool) : String :=
  operandText precedence strict p.node p.text

/-! ## Products -/

/-- What the text of a product so far amounts to. -/
inductive Lead where
  /-- Nothing has been written. -/
  | nothing
  /-- Just a minus sign. -/
  | minus
  /-- Some factor. -/
  | factor
  deriving DecidableEq

/-- What the text amounts to after `text` has been appended. -/
def Lead.after (lead : Lead) (text : String) : Lead :=
  match lead with
  | .nothing => if text = "" then .nothing else if text = "-" then .minus else .factor
  | .minus => if text = "" then .minus else .factor
  | .factor => .factor

/-- An integer, a slash and the base of this reciprocal would be read back as a ratio, unless
another slash follows. -/
def readsAsRatio (before base : Expr) (following : List Piece) : Bool :=
  before.isInteger && base.isInteger &&
    match following with
    | [] => true
    | q :: _ => q.node.reciprocalBase?.isNone

/-- The text of the factors after the first; `before` is the factor before them. -/
def factorsText (before : Expr) (lead : Lead) : List Piece → String
  | [] => ""
  | p :: ps =>
    let plain := p.operand Operator.multiply.precedence false
    let text :=
      if lead = .factor then
        match p.node.reciprocalBase? with
        | some base =>
          if readsAsRatio before base ps then "*" ++ plain
          else "/" ++ operandText Operator.multiply.precedence true base p.firstText
        | none => "*" ++ plain
      else plain
    text ++ factorsText p.node (lead.after text) ps

/-- The text of the first factor: `-1` before anything but a number is a minus sign, and another
negative exact number stands without parentheses. -/
def firstFactorText (p : Piece) (rest : List Piece) : String :=
  if p.node.same (.num .minusOne) && !(rest.head?.any (·.node.isNumber)) then "-"
  else
    match p.node with
    | .num (.double _) => p.operand Operator.multiply.precedence false
    | .num n => if n.isNegative then p.text else p.operand Operator.multiply.precedence false
    | _ => p.operand Operator.multiply.precedence false

/-- The text of a product. -/
def productText : List Piece → String
  | [] => ""
  | p :: ps =>
    let first := firstFactorText p ps
    first ++ factorsText p.node (Lead.after .nothing first) ps

/-! ## Sums -/

/-- The text of the terms after the first. -/
def termsText : List Piece → String
  | [] => ""
  | p :: ps =>
    let term := p.operand Operator.add.precedence false
    (if term.toList.head? = some '-' then term else "+" ++ term) ++ termsText ps

/-- The text of a sum. -/
def sumText : List Piece → String
  | [] => ""
  | p :: ps => p.operand Operator.add.precedence false ++ termsText ps

end Expr

namespace Operator

/-- An application written as a call. -/
def callText (op : Operator) (ps : List Expr.Piece) : String :=
  op.name ++ "(" ++ ",".intercalate (ps.map Expr.Piece.text) ++ ")"

/-- An application written with the operator between its operands. A power of more than two
parameters is a call all the same, since the text would be read as nested powers. -/
def infixText (op : Operator) (ps : List Expr.Piece) : String :=
  match op, ps with
  | .multiply, ps => Expr.productText ps
  | .add, ps => Expr.sumText ps
  | .power, [b, e] => b.operand op.precedence false ++ "^" ++ e.operand op.precedence true
  | .power, ps => op.callText ps
  | op, ps =>
    match op.mark with
    | some mark => mark.intercalate (ps.map (·.operand op.precedence false))
    | none => op.callText ps

/-- Why an application cannot be written with the operator between its operands. -/
inductive InfixError where
  /-- The operator has no mark to write. -/
  | noMark
  /-- A minus sign stands for a factor `-1`, and there is no factor after it. -/
  | missingFactor
  /-- A power lacks its base or its exponent. -/
  | missingOperand
  deriving DecidableEq

/-- Whether an application can be written with the operator between its operands. -/
def checkInfix (op : Operator) (ps : List Expr) : Except InfixError Unit :=
  match op, ps with
  | .multiply, [e] => if e.same (.num .minusOne) then .error .missingFactor else .ok ()
  | .power, [] => .error .missingOperand
  | .power, [_] => .error .missingOperand
  | op, _ => if op.mark.isNone then .error .noMark else .ok ()

/-- The text of an application. -/
def text (op : Operator) (ps : List Expr.Piece) : String :=
  if op.mark.isNone || ps.length < 2 then op.callText ps else op.infixText ps

end Operator

namespace Expr

mutual

/-- An expression with its text. -/
def piece : Expr → Piece
  | .num n => ⟨.num n, n.text, ""⟩
  | .sym name role => ⟨.sym name role, name, ""⟩
  | .app op ps =>
    let qs := pieces ps
    ⟨.app op ps, op.text qs, (qs.head?.map Piece.text).getD ""⟩

/-- The expressions of a list with their texts. -/
def pieces : List Expr → List Piece
  | [] => []
  | p :: ps => p.piece :: pieces ps

end

/-- The text of an expression. -/
def text (e : Expr) : String := e.piece.text

/-- The pieces of a list are the pieces of its items. -/
theorem pieces_eq_map (ps : List Expr) : pieces ps = ps.map piece := by
  induction ps with
  | nil => rfl
  | cons p ps ih => simp [pieces, ih]

/-! ## What can be written -/

/-- Applications may be nested this deep to be read, evaluated or written. -/
def maxDepth : Nat := 1000

mutual

/-- Every number of the expression has a decimal text. -/
def hasText : Expr → Bool
  | .num n => n.hasText
  | .sym _ _ => true
  | .app _ ps => allHaveText ps

/-- Every number of the expressions has a decimal text. -/
def allHaveText : List Expr → Bool
  | [] => true
  | p :: ps => p.hasText && allHaveText ps

end

/-- Why an expression has no text. -/
inductive TextError where
  /-- It is nested deeper than `maxDepth`. -/
  | tooDeep
  /-- An integer in it has too many digits. -/
  | tooLong
  deriving DecidableEq

/-- Whether an expression can be written at all. -/
def checkText (e : Expr) : Except TextError Unit :=
  if e.deeperThan maxDepth then .error .tooDeep
  else if e.hasText then .ok () else .error .tooLong

/-- The text of an expression, if it can be written. -/
def render (e : Expr) : Except TextError String := do
  e.checkText
  return e.text

end Expr

end Reckoner
