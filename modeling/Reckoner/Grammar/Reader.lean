import Reckoner.Expr.Render
import Reckoner.Grammar.Token
import Reckoner.Text.Case

/-!
# Reading expressions

The grammar, loosest binding first:

```
define          := expression ('=' expression)*
expression      := ['+' | '-'] multiplication (('+' | '-') multiplication)*
multiplication  := division ('*' division)*
division        := power ('/' power)*
power           := term ('^' term)*
term            := '-' term
                 | name ['(' [expression (',' expression)*] ')']
                 | numeral
                 | '(' expression ')'
```

A `Reader` takes an expression off the front of a token list and returns the rest together with the
fact that it is shorter; every repetition of the grammar is an instance of `series`, which ends
because of it. Only a term can contain a whole expression, so nesting is counted in terms, and
sums, products, chains of powers and chains of definitions may be of any length.

Reading never binds anything. A `Scope` says which operators there are and which names are variables
at the time of reading.
-/

namespace Reckoner

/-- What names mean while a text is read. -/
structure Scope where
  /-- The operator of an upper-case name. -/
  operator? : String → Option Operator
  /-- The name is a variable. -/
  isDefined : String → Bool
  /-- Where variables are looked up later. -/
  store : StoreId

namespace Scope

/-- The operator under the name of a built-in one, which that name may have been given to. -/
def current (s : Scope) (op : Operator) : Operator := (s.operator? op.name).getD op

/-- The application that a sign or a mark of the text stands for. -/
def apply (s : Scope) (op : Operator) (params : List Expr) : Expr := .app (s.current op) params

end Scope

/-! ## Numerals -/

/-- The number written by decimal digits. -/
def digitsValue (ds : List Char) : Nat := ds.foldl (fun n c => 10 * n + (c.toNat - '0'.toNat)) 0

/-- The literal of a numeral: a double if it has a point, otherwise an integer. -/
def readNumeral (position : Nat) (whole : List Char) (fraction : Option (List Char)) :
    Except SyntaxError Number :=
  match fraction with
  | some ds =>
    .ok (.double (Binary64.ofQuotient (digitsValue (whole ++ ds)) (Nat.pow 10 ds.length)))
  | none =>
    if maxDecimalDigits < whole.length then
      .error (.numeralTooLong (String.ofList (whole.take 20)) position)
    else .ok (.integer (digitsValue whole))

/-! ## Trees that the grammar builds -/

/-- A minus sign before factors: it goes into a leading exact number, and is a factor `-1` before
anything else. -/
def negateFactors : List Expr → List Expr
  | .num n :: es =>
    match n.negateExact? with
    | some m => .num m :: es
    | none => .num .minusOne :: .num n :: es
  | es => .num .minusOne :: es

namespace Scope

/-- A single item is itself, several are joined by the operator. -/
def join (s : Scope) (op : Operator) : List Expr → Expr
  | [e] => e
  | es => s.apply op es

/-- A chain of divisions. One integer over one other is a ratio, anything else a product with
reciprocals. -/
def quotient (s : Scope) (numerator : Expr) (denominators : List Expr) : Expr :=
  match numerator, denominators with
  | e, [] => e
  | .num (.integer a), [.num (.integer b)] => .num (.fraction (Rat.divInt a b))
  | e, ds => s.apply .multiply (e :: ds.map fun d => s.apply .power [d, .num .minusOne])

/-- A chain of one operator, from the left. -/
def chain (s : Scope) (op : Operator) (e : Expr) (es : List Expr) : Expr :=
  es.foldl (fun l r => s.apply op [l, r]) e

end Scope

/-! ## Readers -/

/-- Tokens fewer than `n`. -/
abbrev Rest (n : Nat) := { ts : List Token // ts.length < n }

/-- Takes something off the front of a list of tokens. -/
abbrev ReaderOf (α : Type) := (ts : List Token) → Except SyntaxError (α × Rest ts.length)

/-- Takes an expression off the front of a list of tokens. -/
abbrev Reader := ReaderOf Expr

/-- The same rest, of a longer list. -/
def Rest.weaken {m n : Nat} (r : Rest m) (h : m ≤ n) : Rest n := ⟨r.1, Nat.lt_of_lt_of_le r.2 h⟩

/-- Moving on to the next token fails if it is a character that starts no lexeme. -/
def ready : List Token → Except SyntaxError Unit
  | ⟨.stray c, position⟩ :: _ => .error (.unidentified c position)
  | _ => .ok ()

/-- Takes the first token off, and then what `item` reads. -/
def afterToken {α : Type} (item : ReaderOf α) (t : Token) (rest : List Token) :
    Except SyntaxError (α × Rest (t :: rest).length) := do
  ready rest
  let (a, r) ← item rest
  return (a, r.weaken (Nat.le_succ _))

/-- Reads items for as long as the next token is a separator; `separator` gives the reader of the
item after such a token. -/
def series {α : Type} (separator : Token → Option (ReaderOf α)) (n : Nat) (ts : List Token)
    (h : ts.length < n) : Except SyntaxError (List α × Rest n) :=
  match ts with
  | [] => .ok ([], ⟨[], h⟩)
  | t :: rest =>
    match separator t with
    | none => .ok ([], ⟨t :: rest, h⟩)
    | some item => do
      ready rest
      let (a, r) ← item rest
      let (as, r) ← series separator n r.1
        (Nat.lt_trans r.2 (Nat.lt_trans (Nat.lt_succ_self _) h))
      return (a :: as, r)
termination_by ts.length
decreasing_by exact Nat.lt_trans r.2 (Nat.lt_succ_self _)

/-- Reads an item and then a series. -/
def itemAndSeries {α β : Type} (item : ReaderOf α) (separator : Token → Option (ReaderOf β)) :
    ReaderOf (α × List β) := fun ts => do
  let (a, r) ← item ts
  let (bs, r) ← series separator ts.length r.1 r.2
  return ((a, bs), r)

/-- The reader after a token of one kind. -/
def onKind {α : Type} (kind : LexemeKind) (item : ReaderOf α) (t : Token) :
    Option (ReaderOf α) :=
  match t.lexeme with
  | .mark k _ => if k = kind then some item else none
  | _ => none

namespace Scope

variable (s : Scope)

/-! ### Operators between terms -/

/-- Reads a power. -/
def power (term : Reader) : Reader := fun ts => do
  let ((e, es), r) ← itemAndSeries term (onKind .caret term) ts
  return (s.chain .power e es, r)

/-- Reads a divisor after a slash at `position`; an exact zero is refused. -/
def divisor (term : Reader) (position : Nat) : Reader := fun ts => do
  let (e, r) ← s.power term ts
  if e.isZero then .error (.divisionByZero position) else return (e, r)

/-- Reads a division. -/
def division (term : Reader) : Reader := fun ts => do
  let ((e, es), r) ←
    itemAndSeries (s.power term) (fun t => onKind .slash (s.divisor term t.start) t) ts
  return (s.quotient e es, r)

/-- Reads a multiplication; `negative` is the sign before it. -/
def multiplication (term : Reader) (negative : Bool) : Reader := fun ts => do
  let ((e, es), r) ← itemAndSeries (s.division term) (onKind .star (s.division term)) ts
  return (s.join .multiply (if negative then negateFactors (e :: es) else e :: es), r)

/-- The reader of a multiplication after a plus or minus sign. -/
def signedMultiplication (term : Reader) (t : Token) : Option Reader :=
  match t.lexeme with
  | .mark .plus _ => some (s.multiplication term false)
  | .mark .minus _ => some (s.multiplication term true)
  | _ => none

/-- Reads the first multiplication of an expression, which may have a sign of its own. -/
def leadingMultiplication (term : Reader) : Reader
  | [] => s.multiplication term false []
  | t :: rest =>
    match s.signedMultiplication term t with
    | some item => afterToken item t rest
    | none => s.multiplication term false (t :: rest)

/-- Reads a sum. -/
def expression (term : Reader) : Reader := fun ts => do
  let ((e, es), r) ←
    itemAndSeries (s.leadingMultiplication term) (s.signedMultiplication term) ts
  return (s.join .add (e :: es), r)

/-! ### Terms -/

/-- The complaint about a token where a term has to start. -/
def unexpected (t : Token) : SyntaxError :=
  match t.lexeme with
  | .mark .closing _ => .extraClose t.start
  | .stray c => .unidentified c t.start
  | l => .unexpected l.first t.start

/-- Takes a closing parenthesis off the front of what is left. -/
def closing (missing : Option Token → SyntaxError) {n : Nat} (r : Rest n) :
    Except SyntaxError (Rest n) :=
  match r with
  | ⟨[], _⟩ => .error (missing none)
  | ⟨t :: rest, h⟩ =>
    match t.lexeme with
    | .mark .closing _ => do
      ready rest
      return ⟨rest, Nat.lt_trans (Nat.lt_succ_self _) h⟩
    | _ => .error (missing (some t))

/-- Reads the rest of a parenthesized expression whose parenthesis opened at `position`. -/
def parenthesized (item : Reader) (position : Nat) : Reader := fun ts => do
  let (e, r) ← item ts
  return (e, ← closing (fun _ => .missingClose position) r)

/-- Reads the parameters of a call up to its closing parenthesis; `stop` is the end of the text. -/
def parameters (item : Reader) (stop : Nat) (ts : List Token) :
    Except SyntaxError (List Expr × Rest (ts.length + 1)) := do
  let unclosed (t : Option Token) : SyntaxError := .unclosedCall (t.elim stop Token.start)
  match ts.head?.map Token.lexeme with
  | some (.mark .closing _) => return ([], ← closing unclosed ⟨ts, Nat.lt_succ_self _⟩)
  | _ =>
    let ((e, es), r) ← itemAndSeries item (onKind .comma item) ts
    return (e :: es, (← closing unclosed r).weaken (Nat.le_succ _))

/-- What a name means by itself. -/
def symbol (name : String) (position : Nat) : Except SyntaxError Expr :=
  if Text.allUpper name then
    match s.operator? name with
    | some op => .ok (.ofOperator op)
    | none => .error (.unsupportedOperator name position)
  else if s.isDefined name then .ok (.sym name (.stored s.store))
  else .ok (.free name)

/-- Reads what follows a name at `position`: the parameters of a call, or nothing. -/
def named (item : Reader) (stop : Nat) (name : String) (position : Nat) :
    (ts : List Token) → Except SyntaxError (Expr × Rest (ts.length + 1))
  | [] => do return (← s.symbol name position, ⟨[], Nat.zero_lt_succ _⟩)
  | t :: rest => do
    let e ← s.symbol name position
    match t.lexeme, e with
    | .mark .opening _, .sym _ (.operator op) =>
      ready rest
      let (params, r) ← parameters item stop rest
      return (.app op params, r.weaken (Nat.le_succ _))
    | .mark .opening _, _ => .error (.notCallable name position)
    | _, _ => return (e, ⟨t :: rest, Nat.lt_succ_self _⟩)

/-- Reads a term, and the terms in it with `inner`; `stop` is the end of the text. -/
def termWith (stop : Nat) (inner : Reader) : Reader := fun ts =>
  let item := s.expression inner
  match ts with
  | [] => .error (.unexpectedEnd stop)
  | t :: rest =>
    match t.lexeme with
    | .mark .minus _ => do
      let (e, r) ← afterToken inner t rest
      return (s.apply .multiply [.num .minusOne, e], r)
    | .name cs => do
      ready rest
      s.named item stop (String.ofList cs) t.start rest
    | .numeral whole fraction => do
      ready rest
      return (.num (← readNumeral t.start whole fraction), ⟨rest, Nat.lt_succ_self _⟩)
    | .mark .opening _ => afterToken (parenthesized item t.start) t rest
    | _ => .error (unexpected t)

/-- Reads a term that contains terms nested at most `depth` deep. -/
def term (stop : Nat) : Nat → Reader
  | 0 => fun _ => .error .tooDeep
  | depth + 1 => s.termWith stop (term stop depth)

/-! ### Whole texts -/

/-- Reads a chain of definitions. -/
def definition (term : Reader) : Reader := fun ts => do
  let ((e, es), r) ←
    itemAndSeries (s.expression term) (onKind .equals (s.expression term)) ts
  return (s.chain (.define s.store) e es, r)

/-- Reads a whole text, in which terms are nested at most `depth` deep. -/
def readWithin (depth : Nat) (text : List Char) : Except SyntaxError Expr := do
  let ts := tokens text
  ready ts
  let (e, r) ← s.definition (s.term text.length depth) ts
  match r.1 with
  | [] => return e
  | t :: _ => .error (unexpected t)

/-- Reads a whole text. -/
def read (text : String) : Except SyntaxError Expr := s.readWithin Expr.maxDepth text.toList

end Scope

end Reckoner
