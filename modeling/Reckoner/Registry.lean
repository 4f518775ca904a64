import Reckoner.Grammar.Reader
import Reckoner.Table

/-!
# Registries

A registry holds the operators that can be called by name and the values of the variables. All
upper-case names are reserved for operators. Reading a text only looks things up; variables change
when a definition is evaluated, or through the calculator.

Registries are found by their `StoreId`, because an expression refers to the registry of the text it
was read from: its definitions bind there, and its variables are looked up there.
-/

namespace Reckoner

/-- Why a definition is rejected. -/
inductive DefinitionError where
  /-- A definition with a number of parameters other than two. -/
  | parameterCount (n : Nat)
  /-- Something that is not a symbol cannot be assigned to. -/
  | notAssignable (target : String)
  /-- The name has other characters than a variable's. -/
  | invalidName (name : String)
  /-- The name is reserved for operators. -/
  | operatorName (name : String)
  deriving DecidableEq

/-- The error as it is reported. -/
def DefinitionError.message : DefinitionError → String
  | parameterCount n => "DEFINE expects 2 parameters, got " ++ toString n
  | notAssignable target => "Cannot assign to " ++ target
  | invalidName name => "Invalid variable name: " ++ Text.quoted name
  | operatorName name => "Cannot assign to operator name " ++ name

/-- Why an operator cannot be registered. -/
inductive RegistrationError where
  /-- Its name is not upper case. -/
  | notUpperCase (name : String)
  deriving DecidableEq

/-- The error as it is reported. -/
def RegistrationError.message : RegistrationError → String
  | notUpperCase name => "Operator names must be upper case: " ++ Text.quoted name

/-- The text without one line feed at its end. -/
def dropFinalNewline (cs : List Char) : List Char :=
  if cs.getLast? = some '\n' then cs.dropLast else cs

/-- The name is a letter followed by letters and digits; one line feed may follow. -/
def isVariableName (name : String) : Bool :=
  match dropFinalNewline name.toList with
  | [] => false
  | c :: cs => c.isAlpha && cs.all isNameChar

/-- Operators and variables. -/
structure Registry where
  /-- The operators by name. -/
  operators : Table String Operator
  /-- The values of the variables by name. -/
  bindings : Table String Expr

namespace Registry

/-- The registry with the built-in operators and no variable; `id` is where definitions bind. -/
def fresh (id : StoreId) : Registry where
  operators := ⟨[.add, .multiply, .power, .define id].map fun op => (op.name, op)⟩
  bindings := .empty

/-- Adds an operator under its name, which has to be upper case. -/
def register (r : Registry) (op : Operator) : Except RegistrationError Registry :=
  if Text.allUpper op.name then .ok { r with operators := r.operators.set op.name op }
  else .error (.notUpperCase op.name)

/-- Binds a variable. -/
def define (r : Registry) (name : String) (value : Expr) : Except DefinitionError Registry :=
  if !isVariableName name then .error (.invalidName name)
  else if Text.allUpper name then .error (.operatorName name)
  else .ok { r with bindings := r.bindings.set name value }

/-- Removes a variable. -/
def undefine (r : Registry) (name : String) : Registry :=
  { r with bindings := r.bindings.erase name }

/-- Removes all variables. -/
def clear (r : Registry) : Registry := { r with bindings := .empty }

/-- What names mean to a text that is read for this registry, which is the one of `id`. -/
def scope (r : Registry) (id : StoreId) : Scope where
  operator? := r.operators.get?
  isDefined := r.bindings.contains
  store := id

/-- Names for display. -/
def displayNames (names : List String) : String :=
  "[" ++ ", ".intercalate (names.map Text.quoted) ++ "]"

/-- The registry for display. -/
def display (r : Registry) : String :=
  "Registry(operators=" ++ displayNames r.operators.names ++ ", variables=" ++
    displayNames r.bindings.names ++ ")"

end Registry

/-- All registries. One that was never touched is fresh. -/
structure Stores where
  /-- The registries that were touched. -/
  touched : Table StoreId Registry

namespace Stores

/-- Nothing was touched. -/
def fresh : Stores := ⟨.empty⟩

/-- The registry of an identifier. -/
def registry (s : Stores) (id : StoreId) : Registry := (s.touched.get? id).getD (.fresh id)

/-- Replaces a registry. -/
def put (s : Stores) (id : StoreId) (r : Registry) : Stores := ⟨s.touched.set id r⟩

/-- Replacing a registry changes that registry alone. -/
theorem registry_put (s : Stores) (id id' : StoreId) (r : Registry) :
    (s.put id r).registry id' = if id = id' then r else s.registry id' := by
  unfold registry put
  rw [Table.get?_set]
  split <;> rfl

@[simp] theorem registry_fresh (id : StoreId) : fresh.registry id = .fresh id := rfl

end Stores

end Reckoner
