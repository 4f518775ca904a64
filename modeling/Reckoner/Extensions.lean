import Reckoner.Expr.Basic

/-!
# Extension operators

Operators beside the built-in ones that can be registered by name. One takes the larger of two
numbers, one folds its operands associatively and adds integers, one folds without any rule, and
the others leave their applications alone. A name that none of them has makes an operator of the
last sort.
-/

namespace Reckoner.Extension

/-- Takes the larger of two numbers. -/
def larger : Extension :=
  { name := "MAX", kind := "Max", precedence := atomPrecedence, mark := none
    fold := some { associative := false, pair := .larger } }

/-- Folds associatively, adds integers and records what it is asked. -/
def recording : Extension :=
  { name := "REC", kind := "Rec", precedence := atomPrecedence, mark := none
    fold := some { associative := true, pair := .sumIntegers } }

/-- Folds without any rule. -/
def plain : Extension :=
  { name := "PLAIN", kind := "Plain", precedence := atomPrecedence, mark := none
    fold := some { associative := false, pair := .keep } }

/-- Leaves its applications alone. -/
def inert : Extension :=
  { name := "INERT", kind := "Inert", precedence := atomPrecedence, mark := none, fold := none }

/-- Leaves its applications alone and is written between its operands. -/
def remainder : Extension :=
  { name := "MOD", kind := "Mod", precedence := 250, mark := some "%", fold := none }

/-- Leaves its applications alone; its name is not upper case, so it cannot be registered. -/
def lowerCase : Extension :=
  { name := "low", kind := "Lower", precedence := atomPrecedence, mark := none, fold := none }

/-- Leaves its applications alone, under any name. -/
def named (name : String) : Extension :=
  { name := name, kind := "Odd", precedence := atomPrecedence, mark := none, fold := none }

/-- The extensions with a name of their own. -/
def all : List Extension := [larger, recording, plain, inert, remainder, lowerCase]

/-- The extension of a name. -/
def ofName (name : String) : Extension := (all.find? (·.name == name)).getD (named name)

end Reckoner.Extension
