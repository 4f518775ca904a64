import Reckoner.Expr.Notation

/-!
# Traces of a calculation

Reading, simplifying and binding leave a trace of events. Most of them have a line in the log, with
a level and the name of the part of the program that reports it. The questions that the
integer-adding extension answers are recorded too, but have no line.

A `Trace` is a tree, so that traces join in constant time; `Trace.toList` is its meaning.
-/

namespace Reckoner

/-- The kinds of operands on which an extension is asked for a result. -/
inductive PairKind where
  /-- Two integers. -/
  | integers
  /-- Two doubles. -/
  | doubles
  /-- Two ratios. -/
  | fractions
  /-- Any other pair. -/
  | objects
  deriving DecidableEq

/-- The name of a kind of pair. -/
def PairKind.name : PairKind → String
  | integers => "integers"
  | doubles => "doubles"
  | fractions => "fractions"
  | objects => "objects"

/-- The kind of a pair of operands. -/
def PairKind.of (l r : Expr) : PairKind :=
  if l.isInteger && r.isInteger then integers
  else
    match l, r with
    | .num (.double _), .num (.double _) => doubles
    | .num (.fraction _), .num (.fraction _) => fractions
    | _, _ => objects

/-- Something that happened during a calculation. -/
inductive Event where
  /-- A text was read. -/
  | read (text : String) (e : Expr)
  /-- A fold replaced two operands by one. -/
  | step (op : Operator) (left right result : Expr)
  /-- A power of doubles stayed as it is. -/
  | unreduced (base exponent : Float) (reason : String)
  /-- An extension was asked for a result. -/
  | asked (kind : PairKind) (left right : Expr)
  /-- A variable was bound. -/
  | defined (name : String) (value : Expr)
  /-- A variable was removed. -/
  | undefined (name : String)
  /-- All variables were removed. -/
  | cleared
  /-- An expression was evaluated. -/
  | evaluated (e value : Expr)

/-- The line of the log for an event. -/
def Event.line? : Event → Option String
  | read text e =>
    some ("DEBUG symcalc.parser: Parsed " ++ Text.quoted text ++ " as " ++ e.construction)
  | step op l r result =>
    some ("DEBUG symcalc.evaluator: " ++ op.name ++ ": " ++ l.text ++ ", " ++ r.text ++ " -> " ++
      result.text)
  | unreduced b e reason =>
    some ("DEBUG symcalc.operators: POWER: " ++ positionalDouble b ++ "^" ++ positionalDouble e ++
      " left unreduced: " ++ reason)
  | asked _ _ _ => none
  | defined name value => some ("INFO symcalc.registry: Defined " ++ name ++ " = " ++ value.text)
  | undefined name => some ("INFO symcalc.registry: Undefined " ++ name)
  | cleared => some "INFO symcalc.registry: Cleared all variables"
  | evaluated e value =>
    some ("DEBUG symcalc.engine: Evaluated " ++ e.text ++ " to " ++ value.text)

/-! ## Traces -/

/-- Events in the order in which they happened. -/
inductive Trace where
  /-- No event. -/
  | empty
  /-- One event. -/
  | one (e : Event)
  /-- The events of one trace and then those of another. -/
  | both (first second : Trace)

namespace Trace

/-- The events of one trace and then those of another. -/
def append : Trace → Trace → Trace
  | empty, t => t
  | t, empty => t
  | t, u => both t u

instance : Append Trace := ⟨append⟩

/-- The events of a trace before those of a list. -/
def toListBefore : Trace → List Event → List Event
  | empty, es => es
  | one e, es => e :: es
  | both t u, es => t.toListBefore (u.toListBefore es)

/-- The events of a trace. -/
def toList (t : Trace) : List Event := t.toListBefore []

/-- The lines of the log for a trace. -/
def lines (t : Trace) : List String := t.toList.filterMap Event.line?

/-- Listing a trace before some events lists the trace and then those events. -/
theorem toListBefore_eq (t : Trace) (es : List Event) : t.toListBefore es = t.toList ++ es := by
  induction t generalizing es with
  | empty => rfl
  | one e => rfl
  | both t u iht ihu =>
    rw [toList, toListBefore, toListBefore, iht, ihu, iht (u.toListBefore []), ihu [],
      List.append_nil, List.append_assoc]

@[simp] theorem toList_empty : empty.toList = [] := rfl

@[simp] theorem toList_one (e : Event) : (one e).toList = [e] := rfl

@[simp] theorem toList_both (t u : Trace) : (both t u).toList = t.toList ++ u.toList :=
  toListBefore_eq t _

@[simp] theorem toList_append (t u : Trace) : (t ++ u).toList = t.toList ++ u.toList := by
  change (append t u).toList = _
  cases t <;> cases u <;> simp [append]

end Trace

end Reckoner
