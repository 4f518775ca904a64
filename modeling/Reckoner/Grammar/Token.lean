import Reckoner.Grammar.Scanner

/-!
# Tokens

A text is cut into tokens before it is read: names and numerals are as long as possible, and blanks
are dropped. A numeral has at most one point. A character that starts no lexeme becomes a token of
its own, so that it is complained about only when the reader comes to it.
-/

namespace Reckoner

/-- A lexeme. -/
inductive Lexeme where
  /-- A letter and the letters and digits after it. -/
  | name (text : List Char)
  /-- Digits, and the digits after the point if there is one. -/
  | numeral (whole : List Char) (fraction : Option (List Char))
  /-- A mark of one character. -/
  | mark (kind : LexemeKind) (c : Char)
  /-- A character that starts no lexeme. -/
  | stray (c : Char)
  deriving DecidableEq

/-- A lexeme and the position of its first character. -/
structure Token where
  /-- The lexeme. -/
  lexeme : Lexeme
  /-- The position of its first character. -/
  start : Nat
  deriving DecidableEq

/-- A character that continues a name. -/
def isNameChar (c : Char) : Bool := c.isAlpha || c.isDigit

/-- The first character of a lexeme. -/
def Lexeme.first : Lexeme → Char
  | .name cs => cs.headD ' '
  | .numeral ds _ => ds.headD ' '
  | .mark _ c => c
  | .stray c => c

/-- The characters of a lexeme. -/
def Lexeme.chars : Lexeme → List Char
  | .name cs => cs
  | .numeral ds none => ds
  | .numeral ds (some fs) => ds ++ '.' :: fs
  | .mark _ c => [c]
  | .stray c => [c]

/-- The numeral whose whole part is `ds`, where `cs` follows. -/
def Lexeme.numeralBefore (ds : List Char) : List Char → Lexeme
  | '.' :: cs => .numeral ds (some (cs.takeWhile Char.isDigit))
  | _ => .numeral ds none

/-- The lexeme that starts with `c`, where `cs` follows. -/
def Lexeme.ofChars (c : Char) (cs : List Char) : Lexeme :=
  match LexemeKind.ofChar? c with
  | none => .stray c
  | some .letter => .name (c :: cs.takeWhile isNameChar)
  | some .digit =>
    .numeralBefore (c :: cs.takeWhile Char.isDigit) (cs.dropWhile Char.isDigit)
  | some kind => .mark kind c

/-- The tokens of a text that begins at `position`. -/
def tokensFrom (position : Nat) : List Char → List Token
  | [] => []
  | c :: cs =>
    if isSpace c then tokensFrom (position + 1) cs
    else
      let lexeme := Lexeme.ofChars c cs
      let more := lexeme.chars.length - 1
      ⟨lexeme, position⟩ :: tokensFrom (position + 1 + more) (cs.drop more)
termination_by cs => cs.length

/-- The tokens of a text. -/
def tokens (cs : List Char) : List Token := tokensFrom 0 cs

end Reckoner
