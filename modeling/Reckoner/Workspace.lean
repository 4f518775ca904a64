import Reckoner.Calculator
import Reckoner.Extensions

/-!
# Workspaces

A workspace holds named calculators and named expressions, and a common registry that belongs to no
calculator. Any calculator may evaluate any expression, whichever calculator read it. A calculator
that is named for the first time comes with a registry of its own.
-/

namespace Reckoner

/-- Why a request to a workspace has no answer. -/
inductive RequestError where
  /-- A calculation failed. -/
  | calculation (e : CalculationError)
  /-- An operator was refused. -/
  | registration (e : RegistrationError)
  /-- No expression has the name. -/
  | unknownTree (name : String)
  deriving DecidableEq

/-- A request to one calculator of a workspace, or to the common registry. -/
inductive Request where
  /-- Let the calculator work against the registry of another one. -/
  | share (other : String)
  /-- Read and evaluate a text. -/
  | calculate (text : String)
  /-- Read a text and keep the expression. -/
  | read (tree text : String)
  /-- Evaluate an expression and keep the value under another name. -/
  | evaluate (source tree : String)
  /-- Write an expression. -/
  | render (tree : String)
  /-- Outline an expression. -/
  | outline (tree indent : String)
  /-- Compare two expressions. -/
  | same (tree other : String)
  /-- Bind a variable to the value of a text. -/
  | define (name text : String)
  /-- Bind a variable to an expression as it is. -/
  | assign (name tree : String)
  /-- Remove a variable. -/
  | undefine (name : String)
  /-- Remove all variables. -/
  | clear
  /-- Ask whether a variable is defined. -/
  | isDefined (name : String)
  /-- Ask for the value of a variable. -/
  | value (name : String)
  /-- List the operators. -/
  | operators
  /-- Show an operator. -/
  | lookup (name : String)
  /-- Register an extension. -/
  | register (name : String)
  /-- Show how a variable is looked up, and look it up. -/
  | substitution (name : String)
  /-- Show the registry and the calculator. -/
  | display
  /-- Read and evaluate a text over the common registry. -/
  | commonCalculate (text : String)
  /-- Read a text over the common registry and keep the expression. -/
  | commonRead (tree text : String)
  /-- Evaluate an expression over the common registry. -/
  | commonEvaluate (tree : String)
  /-- Start the common registry afresh. -/
  | commonReset
  /-- List the variables of the common registry. -/
  | commonVariables

/-- The answer to a request. -/
inductive Answer where
  /-- Nothing to tell. -/
  | nothing
  /-- An expression. -/
  | tree (e : Expr)
  /-- A text. -/
  | text (s : String)
  /-- Yes or no. -/
  | truth (b : Bool)
  /-- Texts. -/
  | texts (ss : List String)
  /-- Variables with their values. -/
  | bindings (vs : List (String × Expr))
  /-- How a variable is looked up, and its value. -/
  | substitution (display : String) (value : Expr)

/-- Calculators, expressions and registries. -/
structure Workspace where
  /-- The registries. -/
  stores : Stores
  /-- The calculators by name. -/
  calculators : Table String Calculator
  /-- The expressions by name. -/
  trees : Table String Expr
  /-- The common registry. -/
  common : StoreId
  /-- No registry from here on is in use. -/
  nextStore : StoreId

namespace Workspace

/-- A workspace without calculators and expressions. -/
def fresh : Workspace :=
  { stores := .fresh, calculators := .empty, trees := .empty, common := 0, nextStore := 1 }

/-- The calculator of a name, made if there is none. -/
def calculator (w : Workspace) (name : String) : Calculator × Workspace :=
  match w.calculators.get? name with
  | some c => (c, w)
  | none =>
    let c : Calculator := ⟨w.nextStore⟩
    (c, { w with calculators := w.calculators.set name c, nextStore := w.nextStore + 1 })

/-- Runs a calculation on the registries of the workspace. -/
def run {α : Type} (w : Workspace) (x : Calculation α) : Except RequestError α × Workspace :=
  let o := x w.stores
  (o.value.mapError .calculation, { w with stores := o.stores })

/-- Runs a calculation and answers with its value. -/
def answer {α : Type} (w : Workspace) (f : α → Answer) (x : Calculation α) :
    Except RequestError Answer × Workspace :=
  let (r, w) := w.run x
  (r.map f, w)

/-- Runs a calculation of an expression, keeps it under a name, and answers with it. -/
def keep (w : Workspace) (tree : String) (x : Calculation Expr) :
    Except RequestError Answer × Workspace :=
  match w.run x with
  | (.ok e, w) => (.ok (.tree e), { w with trees := w.trees.set tree e })
  | (.error e, w) => (.error e, w)

/-- Goes on with the expression of a name. -/
def withTree (w : Workspace) (tree : String)
    (f : Expr → Except RequestError Answer × Workspace) :
    Except RequestError Answer × Workspace :=
  match w.trees.get? tree with
  | some e => f e
  | none => (.error (.unknownTree tree), w)

/-- The outcome of a request to the calculator `c`. -/
def handle (w : Workspace) (name : String) (c : Calculator) :
    Request → Except RequestError Answer × Workspace
  | .share other =>
    let (c, w) := w.calculator other
    (.ok (.truth true), { w with calculators := w.calculators.set name c })
  | .calculate text => w.answer .tree (c.calculate text)
  | .read tree text => w.keep tree (c.read text)
  | .evaluate source tree => w.withTree source fun e => w.keep tree (c.evaluate e)
  | .render tree => w.withTree tree fun e => w.answer .text (c.render e)
  | .outline tree indent => w.withTree tree fun e =>
    w.answer .text (Calculation.ofExcept .ofText (e.outline? indent))
  | .same tree other => w.withTree tree fun e => w.withTree other fun e' =>
    if tree = other then (.ok (.truth true), w)
    else
      match e.sameWithin Expr.maxDepth e' with
      | some b => (.ok (.truth b), w)
      | none => (.error (.calculation (.fault .tooDeep)), w)
  | .define name text => w.answer .tree (c.define name text)
  | .assign name tree => w.withTree tree fun e =>
    w.answer (fun _ => .nothing) (Expr.assign c.store name e)
  | .undefine name => w.answer .truth (c.undefine name)
  | .clear => w.answer (fun _ => .nothing) c.clear
  | .isDefined name =>
    (.ok (.truth ((w.stores.registry c.store).bindings.contains name)), w)
  | .value name =>
    (.ok (((w.stores.registry c.store).bindings.get? name).elim .nothing .tree), w)
  | .operators => w.answer .texts c.operatorNames
  | .lookup name =>
    let op := (w.stores.registry c.store).operators.get? name
    (.ok (op.elim .nothing fun op => .text op.display), w)
  | .register name =>
    match (w.stores.registry c.store).register (.extension (.ofName name)) with
    | .ok r => (.ok (.truth true), { w with stores := w.stores.put c.store r })
    | .error e => (.error (.registration e), w)
  | .substitution name =>
    w.answer (.substitution ("SubstitutionEvaluator(" ++ name ++ ")"))
      (Expr.symbolValue name (.stored c.store))
  | .display =>
    let shown := (w.stores.registry c.store).display
    (.ok (.texts [shown, "Calculator(" ++ shown ++ ")"]), w)
  | .commonCalculate text =>
    w.answer .tree (do (← (Calculator.mk w.common).read text).evaluate)
  | .commonRead tree text => w.keep tree ((Calculator.mk w.common).read text)
  | .commonEvaluate tree => w.withTree tree fun e => w.answer .tree e.evaluate
  | .commonReset =>
    (.ok (.truth true), { w with common := w.nextStore, nextStore := w.nextStore + 1 })
  | .commonVariables => (.ok (.bindings (w.stores.registry w.common).bindings.sorted), w)

/-- The outcome of a request to the calculator of the given name. -/
def perform (w : Workspace) (name : String) (request : Request) :
    Except RequestError Answer × Workspace :=
  let (c, w) := w.calculator name
  w.handle name c request

/-- The variables of the calculator of the given name. -/
def variablesOf (w : Workspace) (name : String) : List (String × Expr) :=
  let (c, w) := w.calculator name
  (w.stores.registry c.store).bindings.sorted

end Workspace

end Reckoner
