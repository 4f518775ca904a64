import Reckoner.Grammar.Error

/-!
# Scanning character by character

The first character of a lexeme decides what kind of lexeme it is. A `Scanner` is a cursor in a text
that skips blanks and classifies the next character; the characters that continue a name or a
numeral are taken from it one at a time.
-/

namespace Reckoner

/-- The kind of a lexeme, as its first character tells it. -/
inductive LexemeKind where
  /-- The end of the text. -/
  | finish
  /-- A caret. -/
  | caret
  /-- A star. -/
  | star
  /-- A slash. -/
  | slash
  /-- A minus sign. -/
  | minus
  /-- A plus sign. -/
  | plus
  /-- An opening parenthesis. -/
  | opening
  /-- A closing parenthesis. -/
  | closing
  /-- A letter, which starts a name. -/
  | letter
  /-- A digit, which starts a numeral. -/
  | digit
  /-- A comma. -/
  | comma
  /-- An equals sign. -/
  | equals
  deriving DecidableEq

namespace LexemeKind

/-- The name of a kind. -/
def label : LexemeKind → String
  | finish => "END"
  | caret => "POWER"
  | star => "MULTIPLY"
  | slash => "DIVIDE"
  | minus => "SUBTRACT"
  | plus => "ADD"
  | opening => "OPEN"
  | closing => "CLOSE"
  | letter => "IDENTIFIER"
  | digit => "DIGIT"
  | comma => "COMMA"
  | equals => "DEFINE"

/-- A kind in words, or by its character if it has only one. -/
def description : LexemeKind → String
  | finish => "end of input"
  | caret => "^"
  | star => "*"
  | slash => "/"
  | minus => "-"
  | plus => "+"
  | opening => "("
  | closing => ")"
  | letter => "identifier"
  | digit => "digit"
  | comma => ","
  | equals => "="

/-- The kind of the lexeme that a character starts. Letters and digits are the ASCII ones. -/
def ofChar? (c : Char) : Option LexemeKind :=
  if c.isAlpha then some letter
  else if c.isDigit then some digit
  else
    match c with
    | '^' => some caret
    | '*' => some star
    | '/' => some slash
    | '-' => some minus
    | '+' => some plus
    | '(' => some opening
    | ')' => some closing
    | ',' => some comma
    | '=' => some equals
    | _ => none

end LexemeKind

/-- The blanks of the expression grammar. -/
def isSpace (c : Char) : Bool := c == ' ' || c == '\t' || c == '\n' || c == '\r'

/-- A cursor in a text. -/
structure Scanner where
  /-- The whole text. -/
  text : String
  /-- What has not been consumed. -/
  rest : List Char
  /-- How many characters have been consumed. -/
  position : Nat
  /-- Where the current lexeme starts. -/
  start : Nat
  /-- The first character of the current lexeme; none at the end of the text. -/
  char : Option Char
  /-- The kind of the current lexeme. -/
  kind : LexemeKind

namespace Scanner

/-- A cursor at the start of a text. -/
def ofText (text : String) : Scanner :=
  { text, rest := text.toList, position := 0, start := 0, char := none, kind := .finish }

/-- The character at the cursor. -/
def peek (s : Scanner) : Option Char := s.rest.head?

/-- Consumes the character at the cursor, if there is one. -/
def next (s : Scanner) : Option Char × Scanner :=
  match s.rest with
  | [] => (none, s)
  | c :: cs => (some c, { s with rest := cs, position := s.position + 1 })

/-- Skips blanks and classifies the next character. A character that starts no lexeme is consumed,
and the kind stays what it was. -/
def advance (s : Scanner) : Except SyntaxError LexemeKind × Scanner :=
  let blanks := s.rest.takeWhile isSpace
  let start := s.position + blanks.length
  match s.rest.drop blanks.length with
  | [] =>
    (.ok .finish,
      { s with rest := [], position := start, start := start, char := none, kind := .finish })
  | c :: cs =>
    let s := { s with rest := cs, position := start + 1, start := start, char := some c }
    match LexemeKind.ofChar? c with
    | some kind => (.ok kind, { s with kind := kind })
    | none => (.error (.unidentified c start), s)

/-- The cursor for display. -/
def display (s : Scanner) : String :=
  "Lexer(" ++ Text.quoted s.text ++ ", pos=" ++ toString s.position ++ ", token=" ++
    s.kind.label ++ ")"

/-- Kind, first character, start and end of each lexeme start up to the end of the text, or up to
the first character that starts none. At most `fuel` of them are listed. -/
def listing (fuel : Nat) (s : Scanner) :
    List (Except SyntaxError (LexemeKind × Option Char × Nat × Nat)) :=
  match fuel with
  | 0 => []
  | fuel + 1 =>
    match s.advance with
    | (.error e, _) => [.error e]
    | (.ok kind, s) =>
      .ok (kind, s.char, s.start, s.position) ::
        if kind = .finish then [] else listing fuel s

end Scanner

/-- The lexeme starts of a text with the end of the text, or up to its first unidentified
character. A text has at most one more of them than it has characters. -/
def lexemeStarts (text : String) :
    List (Except SyntaxError (LexemeKind × Option Char × Nat × Nat)) :=
  (Scanner.ofText text).listing (text.length + 1)

end Reckoner
