import Reckoner.Number.Basic

/-!
# Expressions

An expression is a number literal, a symbol, or the application of an operator to a list of
parameters. There are no subtraction, negation or division nodes: those are sums, products and
reciprocals. Sums and products take any number of parameters.

A symbol has a *role*: a free variable stands for itself, the name of an operator is a value like
any other, and a *stored* variable is looked up in its store when the expression is evaluated. Roles
do not take part in `Expr.same`: two symbols are the same when their names are, and two applications
when the names of their operators and all parameters are. The rules of the calculator also tell
operators apart by name alone.
-/

namespace Reckoner

/-- Identifies a store of variables. -/
abbrev StoreId := Nat

/-! ## Operators -/

/-- What an extension operator makes of two operands. -/
inductive PairRule where
  /-- It keeps every pair as it is. -/
  | keep
  /-- Of two numbers it takes the larger, the left one when they are equal. -/
  | larger
  /-- It adds two integers. -/
  | sumIntegers
  deriving DecidableEq

/-- How an extension operator folds its operands. -/
structure FoldRule where
  /-- Nested applications are flattened, and operands regroup into a running application. -/
  associative : Bool
  /-- The step on two operands. -/
  pair : PairRule
  deriving DecidableEq

/-- An operator beside the built-in ones. -/
structure Extension where
  /-- The name it is called by. -/
  name : String
  /-- The name of its kind, for display. -/
  kind : String
  /-- How tightly it binds. -/
  precedence : Nat
  /-- The text between operands, if it is written between them. -/
  mark : Option String
  /-- Its fold; an operator without one leaves every application as it is. -/
  fold : Option FoldRule
  deriving DecidableEq

/-- An operator. -/
inductive Operator where
  /-- The sum of any number of terms. -/
  | add
  /-- The product of any number of factors. -/
  | multiply
  /-- A power, folded from the left. -/
  | power
  /-- The definition of a variable in a store. -/
  | define (store : StoreId)
  /-- An operator beside the built-in ones. -/
  | extension (e : Extension)
  deriving DecidableEq

/-- Precedence of what needs no parentheses anywhere. -/
def atomPrecedence : Nat := 1000

namespace Operator

/-- The name an operator is called by. -/
def name : Operator → String
  | add => "ADD"
  | multiply => "MULTIPLY"
  | power => "POWER"
  | define _ => "DEFINE"
  | extension e => e.name

/-- How tightly an operator binds; it only matters for the text of an expression. -/
def precedence : Operator → Nat
  | define _ => 100
  | add => 200
  | multiply => 300
  | power => 400
  | extension e => e.precedence

/-- The text between operands. -/
def mark : Operator → Option String
  | add => some "+"
  | multiply => some "*"
  | power => some "^"
  | define _ => some "="
  | extension e => e.mark

/-- The operator for display, as its kind and its name. -/
def display : Operator → String
  | add => "AddEvaluator(ADD)"
  | multiply => "MultiplyEvaluator(MULTIPLY)"
  | power => "PowerEvaluator(POWER)"
  | define _ => "DefineEvaluator(DEFINE)"
  | extension e => e.kind ++ "(" ++ e.name ++ ")"

/-- Nested applications are flattened, and operands regroup into a running application. -/
def isAssociative : Operator → Bool
  | add => true
  | multiply => true
  | power => false
  | define _ => false
  | extension e => e.fold.any (·.associative)

/-- The operator folds its operands; any other one leaves its applications as they are. -/
def folds : Operator → Bool
  | add => true
  | multiply => true
  | power => true
  | define _ => false
  | extension e => e.fold.isSome

end Operator

/-! ## Expressions -/

/-- What a symbol stands for. -/
inductive Role where
  /-- A free variable. -/
  | free
  /-- The name of an operator. -/
  | operator (op : Operator)
  /-- A variable of a store, to be looked up when the expression is evaluated. -/
  | stored (store : StoreId)
  deriving DecidableEq

/-- An expression. -/
inductive Expr where
  /-- A number literal. -/
  | num (n : Number)
  /-- A symbol. -/
  | sym (name : String) (role : Role)
  /-- The application of an operator. -/
  | app (head : Operator) (params : List Expr)

namespace Expr

instance : Inhabited Expr := ⟨.num .zero⟩

/-- The integer literal `n`. -/
def int (n : Int) : Expr := .num (.integer n)

/-- A free variable. -/
def free (name : String) : Expr := .sym name .free

/-- The name of an operator as an expression. -/
def ofOperator (op : Operator) : Expr := .sym op.name (.operator op)

/-! ## Induction -/

mutual

/-- A property holds of every expression if applications inherit it from their parameters. -/
@[elab_as_elim]
theorem induction {motive : Expr → Prop} (num : ∀ n, motive (.num n))
    (sym : ∀ name role, motive (.sym name role))
    (app : ∀ op ps, (∀ p ∈ ps, motive p) → motive (.app op ps)) : (e : Expr) → motive e
  | .num n => num n
  | .sym name role => sym name role
  | .app op ps => app op ps (forall_mem_of_induction num sym app ps)

/-- A property that applications inherit from their parameters holds of the items of a list. -/
theorem forall_mem_of_induction {motive : Expr → Prop} (num : ∀ n, motive (.num n))
    (sym : ∀ name role, motive (.sym name role))
    (app : ∀ op ps, (∀ p ∈ ps, motive p) → motive (.app op ps)) :
    (ps : List Expr) → ∀ p ∈ ps, motive p
  | [] => by simp
  | p :: ps =>
    List.forall_mem_cons.2 ⟨induction num sym app p, forall_mem_of_induction num sym app ps⟩

end

/-! ## Equality -/

mutual

/-- Structural equality; roles do not matter. -/
def same : Expr → Expr → Bool
  | .num a, .num b => a.same b
  | .sym s _, .sym t _ => s == t
  | .app f ps, .app g qs => f.name == g.name && sameList ps qs
  | _, _ => false

/-- Structural equality of lists, item by item. -/
def sameList : List Expr → List Expr → Bool
  | [], [] => true
  | p :: ps, q :: qs => p.same q && sameList ps qs
  | _, _ => false

end

mutual

/-- An expression is the same as itself. -/
theorem same_refl : (e : Expr) → e.same e = true
  | .num a => by simp [same, a.same_refl]
  | .sym _ _ => by simp [same]
  | .app _ ps => by simp [same, sameList_refl ps]

/-- A list of expressions is the same as itself. -/
theorem sameList_refl : (ps : List Expr) → sameList ps ps = true
  | [] => rfl
  | p :: ps => by simp [sameList, same_refl p, sameList_refl ps]

end

mutual

/-- Structural equality, looked for at most `depth` applications deep and from left to right; no
answer if the first difference, or the end of both expressions, lies deeper. -/
def sameWithin : Nat → Expr → Expr → Option Bool
  | 0, .app _ _, .app _ _ => none
  | depth + 1, .app f ps, .app g qs =>
    if f.name == g.name then sameListWithin depth ps qs else some false
  | _, a, b => some (a.same b)

/-- Structural equality of lists, item by item and within a depth. -/
def sameListWithin (depth : Nat) : List Expr → List Expr → Option Bool
  | [], [] => some true
  | p :: ps, q :: qs =>
    match p.sameWithin depth q with
    | some true => sameListWithin depth ps qs
    | answer => answer
  | _, _ => some false

end

/-! ## Tests -/

/-- A number literal of any kind. -/
def isNumber : Expr → Bool
  | .num _ => true
  | _ => false

/-- Exact zero. -/
def isZero : Expr → Bool
  | .num n => n.isZero
  | _ => false

/-- Exact one. -/
def isOne : Expr → Bool
  | .num n => n.isOne
  | _ => false

/-- A number literal below zero. -/
def isNegative : Expr → Bool
  | .num n => n.isNegative
  | _ => false

/-- The value of an integer literal. -/
def toInt? : Expr → Option Int
  | .num n => n.toInt?
  | _ => none

/-- An integer literal. -/
def isInteger (e : Expr) : Bool := e.toInt?.isSome

/-- An application of an operator of the given name. -/
def hasHead (e : Expr) (name : String) : Bool :=
  match e with
  | .app op _ => op.name == name
  | _ => false

/-- How tightly an expression binds. A negative number reads like a sum, and a ratio like a
product. -/
def precedence : Expr → Nat
  | .num n =>
    if n.isNegative then Operator.add.precedence
    else
      match n with
      | .fraction _ => Operator.multiply.precedence
      | _ => atomPrecedence
  | .sym _ _ => atomPrecedence
  | .app op _ => op.precedence

/-! ## Depth -/

mutual

/-- Applications are nested deeper than `limit`. -/
def deeperThan : Nat → Expr → Bool
  | 0, .app _ _ => true
  | limit + 1, .app _ ps => anyDeeperThan limit ps
  | _, _ => false

/-- Applications are nested deeper than `limit` in some expression of the list. -/
def anyDeeperThan (limit : Nat) : List Expr → Bool
  | [] => false
  | p :: ps => p.deeperThan limit || anyDeeperThan limit ps

end

theorem anyDeeperThan_eq_false {limit : Nat} {ps : List Expr} :
    anyDeeperThan limit ps = false ↔ ∀ p ∈ ps, p.deeperThan limit = false := by
  induction ps with
  | nil => simp [anyDeeperThan]
  | cons p ps ih => simp [anyDeeperThan, ih]

end Expr

end Reckoner
