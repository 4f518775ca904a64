import Reckoner.Calculation

/-!
# Evaluation

Numbers evaluate to themselves, and so do free variables and the names of operators. A stored
variable evaluates to the value it has now, as it is, or to a free variable if it has none. An
application evaluates its parameters from left to right and simplifies the result.

A definition evaluates its second parameter, binds the first one to it and has that value. The
target is not evaluated, so a variable can be defined again; what was bound before a later part
fails stays bound.
-/

namespace Reckoner

namespace Expr

/-- The value of a symbol. -/
def symbolValue (name : String) : Role → Calculation Expr
  | .stored id => do
    let r ← Calculation.registry id
    return (r.bindings.get? name).getD (.free name)
  | role => return .sym name role

/-- Binds a variable in a registry. -/
def assign (id : StoreId) (name : String) (value : Expr) : Calculation Unit := do
  let r ← Calculation.registry id
  let r ← Calculation.ofExcept .definition (r.define name value)
  Calculation.put id r
  Calculation.note (.defined name value)

/-- The name that a definition binds; anything but a symbol is refused. -/
def targetName : Expr → Calculation String
  | .sym name _ => return name
  | e => do
    let text ← Calculation.ofExcept .ofText e.render
    Calculation.fail (.definition (.notAssignable text))

mutual

/-- The value of an expression, in which applications are nested at most `depth` deep. -/
def evaluateWithin (depth : Nat) : Expr → Calculation Expr
  | .num n => return .num n
  | .sym name role => symbolValue name role
  | .app (.define id) ps =>
    match depth with
    | 0 => Calculation.fail (.fault .tooDeep)
    | depth + 1 => evaluateDefinition depth id ps
  | .app op ps =>
    match depth with
    | 0 => Calculation.fail (.fault .tooDeep)
    | depth + 1 => do
      let args ← evaluateList depth ps
      Calculation.ofLogged (Simplify.reduce op args)

/-- The values of parameters, from left to right. -/
def evaluateList (depth : Nat) : List Expr → Calculation (List Expr)
  | [] => return []
  | p :: ps => do
    let value ← evaluateWithin depth p
    return value :: (← evaluateList depth ps)

/-- Binds the first parameter to the value of the second, and has that value. -/
def evaluateDefinition (depth : Nat) (id : StoreId) : List Expr → Calculation Expr
  | [target, e] => do
    let name ← targetName target
    let value ← evaluateWithin depth e
    assign id name value
    return value
  | ps => Calculation.fail (.definition (.parameterCount ps.length))

end

/-- The value of an expression. -/
def evaluate (e : Expr) : Calculation Expr := e.evaluateWithin maxDepth

end Expr

end Reckoner
