import Reckoner.Text.Quoted

/-!
# Errors in expression texts

A text that cannot be read has exactly one cause, with the position it points at. Positions count
code points from zero. Nesting that is too deep is the one cause without a position.
-/

namespace Reckoner

/-- Why a text is not an expression. -/
inductive SyntaxError where
  /-- A character that starts no lexeme. -/
  | unidentified (c : Char) (position : Nat)
  /-- A lexeme, shown by its first character, where it cannot stand. -/
  | unexpected (c : Char) (position : Nat)
  /-- The text ends where a term has to follow. -/
  | unexpectedEnd (position : Nat)
  /-- A closing parenthesis that nothing opened. -/
  | extraClose (position : Nat)
  /-- An opening parenthesis, at the position, that is not closed. -/
  | missingClose (position : Nat)
  /-- The parameters of a call are not closed where another lexeme, or the end, stands. -/
  | unclosedCall (position : Nat)
  /-- A slash, at the position, before an exact zero. -/
  | divisionByZero (position : Nat)
  /-- A numeral with too many digits, by its first ones. -/
  | numeralTooLong (firstDigits : String) (position : Nat)
  /-- A call of a name that is not an operator's. -/
  | notCallable (name : String) (position : Nat)
  /-- An upper-case name that no operator has. -/
  | unsupportedOperator (name : String) (position : Nat)
  /-- The text is nested too deeply. -/
  | tooDeep
  deriving DecidableEq

namespace SyntaxError

/-- Where the text goes wrong. -/
def position? : SyntaxError → Option Nat
  | unidentified _ p => some p
  | unexpected _ p => some p
  | unexpectedEnd p => some p
  | extraClose p => some p
  | missingClose p => some p
  | unclosedCall p => some p
  | divisionByZero p => some p
  | numeralTooLong _ p => some p
  | notCallable _ p => some p
  | unsupportedOperator _ p => some p
  | tooDeep => none

/-- What is wrong, without the position. -/
def reason : SyntaxError → String
  | unidentified c _ => "Unidentified character: " ++ String.singleton c
  | unexpected c _ => "Unexpected " ++ Text.quoted (String.singleton c)
  | unexpectedEnd _ => "Unexpected end of input"
  | extraClose _ => "Extra closing parenthesis"
  | missingClose _ => "Missing closing parenthesis"
  | unclosedCall _ => "Expecting matching parenthesis"
  | divisionByZero _ => "Division by zero"
  | numeralTooLong ds _ => "Numeral too long: " ++ ds ++ "..."
  | notCallable name _ => name ++ " is not an operator and cannot be called"
  | unsupportedOperator name _ => "Unsupported operator: " ++ name
  | tooDeep => "Expression nested too deeply"

/-- The error as it is reported. -/
def message (e : SyntaxError) : String :=
  match e.position? with
  | some p => e.reason ++ " (at position " ++ toString p ++ ")"
  | none => e.reason

end SyntaxError

end Reckoner
