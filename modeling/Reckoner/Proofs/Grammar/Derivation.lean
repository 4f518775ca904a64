import Reckoner.Grammar.Reader

/-!
# Derivations

The grammar of texts as relations between lexemes and what they mean. The rules are the same for any
kind of meaning: `Actions` says what they make of the parts of a phrase. Only a term contains
phrases of the same kind as itself, so the rules between terms are stated over any phrase for the
terms, and terms are graded by how deep they nest.
-/

namespace Reckoner

/-- Lexemes together with what they mean. -/
abbrev Phrase (α : Type) := List Lexeme → α → Prop

/-- What the rules of the grammar make of the parts of a phrase. -/
structure Actions (α : Type) where
  /-- A name by itself. -/
  name : List Char → α → Prop
  /-- The call of a name. -/
  call : List Char → List α → α → Prop
  /-- A numeral. -/
  numeral : List Char → Option (List Char) → α → Prop
  /-- A term after a minus sign. -/
  negative : α → α
  /-- A term and its exponents. -/
  power : α → List α → α
  /-- What can be divided by. -/
  divisor : α → Prop
  /-- A power and its divisors. -/
  division : α → List α → α
  /-- A division and further factors, where a minus sign may stand before them. -/
  multiplication : Bool → α → List α → α
  /-- A multiplication and further terms, which have their signs. -/
  expression : α → List α → α
  /-- An expression and what stands after equals signs. -/
  definition : α → List α → α

namespace Grammar

variable {α β : Type}

/-! ## Rules -/

/-- Phrases one after the other. -/
inductive Many (P : Phrase α) : Phrase (List α) where
  | nil : Many P [] []
  | cons {ls ls' a as} (head : P ls a) (tail : Many P ls' as) : Many P (ls ++ ls') (a :: as)

/-- A phrase after a mark. -/
inductive After (k : LexemeKind) (P : Phrase α) : Phrase α where
  | intro {ls a} (c : Char) (h : P ls a) : After k P (.mark k c :: ls) a

section Terms

variable (A : Actions α) (T : Phrase α)

/-- `term ('^' term)*` -/
inductive Power : Phrase α where
  | intro {ls ls' a as} (base : T ls a) (exponents : Many (After .caret T) ls' as) :
      Power (ls ++ ls') (A.power a as)

/-- What can stand after a slash. -/
def Divisor : Phrase α := fun ls a => Power A T ls a ∧ A.divisor a

/-- `power ('/' power)*` -/
inductive Division : Phrase α where
  | intro {ls ls' a as} (numerator : Power A T ls a)
      (divisors : Many (After .slash (Divisor A T)) ls' as) :
      Division (ls ++ ls') (A.division a as)

/-- `division ('*' division)*`, where a minus sign may stand before it. -/
inductive Multiplication (negative : Bool) : Phrase α where
  | intro {ls ls' a as} (first : Division A T ls a)
      (factors : Many (After .star (Division A T)) ls' as) :
      Multiplication negative (ls ++ ls') (A.multiplication negative a as)

/-- A multiplication with its sign. -/
inductive Signed : Phrase α where
  | plus {ls a} (h : After .plus (Multiplication A T false) ls a) : Signed ls a
  | minus {ls a} (h : After .minus (Multiplication A T true) ls a) : Signed ls a

/-- The lexemes do not start with a sign. -/
def Unsigned (ls : List Lexeme) : Prop :=
  ∀ l ∈ ls.head?, ∀ c, l ≠ .mark .plus c ∧ l ≠ .mark .minus c

/-- The first multiplication of an expression, which may go without its sign. -/
inductive Leading : Phrase α where
  | signed {ls a} (h : Signed A T ls a) : Leading ls a
  | unsigned {ls a} (h : Multiplication A T false ls a) (first : Unsigned ls) : Leading ls a

/-- `['+' | '-'] multiplication (('+' | '-') multiplication)*` -/
inductive Expression : Phrase α where
  | intro {ls ls' a as} (first : Leading A T ls a) (terms : Many (Signed A T) ls' as) :
      Expression (ls ++ ls') (A.expression a as)

/-- `[expression (',' expression)*]` -/
inductive Parameters : Phrase (List α) where
  | none : Parameters [] []
  | some {ls ls' a as} (first : Expression A T ls a)
      (others : Many (After .comma (Expression A T)) ls' as) : Parameters (ls ++ ls') (a :: as)

/-- A term; the terms in it are `T`. -/
inductive Term : Phrase α where
  | negative {ls a} (c : Char) (h : T ls a) : Term (.mark .minus c :: ls) (A.negative a)
  | name {cs a} (h : A.name cs a) : Term [.name cs] a
  | call {cs ls as a} (c c' : Char) (h : Parameters A T ls as) (value : A.call cs as a) :
      Term (.name cs :: .mark .opening c :: ls ++ [.mark .closing c']) a
  | numeral {ds fs a} (h : A.numeral ds fs a) : Term [.numeral ds fs] a
  | group {ls a} (c c' : Char) (h : Expression A T ls a) :
      Term (.mark .opening c :: ls ++ [.mark .closing c']) a

/-- `expression ('=' expression)*` -/
inductive Definition : Phrase α where
  | intro {ls ls' a as} (first : Expression A T ls a)
      (values : Many (After .equals (Expression A T)) ls' as) :
      Definition (ls ++ ls') (A.definition a as)

end Terms

/-- Terms that contain terms nested at most so deep. -/
def termAt (A : Actions α) : Nat → Phrase α
  | 0 => fun _ _ => False
  | depth + 1 => Term A (termAt A depth)

/-! ## Monotonicity -/

variable {A : Actions α} {T U : Phrase α} {ls : List Lexeme} {a : α}

/-- What holds of each phrase of a row carries the row over. -/
theorem Many.mono {P Q : Phrase β} (hPQ : ∀ ls b, P ls b → Q ls b) {bs : List β}
    (h : Many P ls bs) : Many Q ls bs := by
  induction h with
  | nil => exact .nil
  | cons head _ ih => exact .cons (hPQ _ _ head) ih

theorem After.mono {k : LexemeKind} {P Q : Phrase β} (hPQ : ∀ ls b, P ls b → Q ls b)
    (ls : List Lexeme) (b : β) : After k P ls b → After k Q ls b
  | .intro c h => .intro c (hPQ _ _ h)

variable (hTU : ∀ ls a, T ls a → U ls a)

include hTU

theorem Power.mono (ls : List Lexeme) (a : α) : Power A T ls a → Power A U ls a
  | .intro base exponents => .intro (hTU _ _ base) (exponents.mono (After.mono hTU))

theorem Divisor.mono (ls : List Lexeme) (a : α) : Divisor A T ls a → Divisor A U ls a
  | ⟨h, ha⟩ => ⟨h.mono hTU, ha⟩

theorem Division.mono (ls : List Lexeme) (a : α) : Division A T ls a → Division A U ls a
  | .intro numerator divisors =>
    .intro (numerator.mono hTU) (divisors.mono (After.mono (Divisor.mono hTU)))

theorem Multiplication.mono {negative : Bool} (ls : List Lexeme) (a : α) :
    Multiplication A T negative ls a → Multiplication A U negative ls a
  | .intro first factors =>
    .intro (first.mono hTU) (factors.mono (After.mono (Division.mono hTU)))

theorem Signed.mono (ls : List Lexeme) (a : α) : Signed A T ls a → Signed A U ls a
  | .plus h => .plus (After.mono (Multiplication.mono hTU) _ _ h)
  | .minus h => .minus (After.mono (Multiplication.mono hTU) _ _ h)

theorem Leading.mono (ls : List Lexeme) (a : α) : Leading A T ls a → Leading A U ls a
  | .signed h => .signed (h.mono hTU)
  | .unsigned h first => .unsigned (h.mono hTU) first

theorem Expression.mono (ls : List Lexeme) (a : α) : Expression A T ls a → Expression A U ls a
  | .intro first terms => .intro (first.mono hTU) (terms.mono (Signed.mono hTU))

theorem Parameters.mono (ls : List Lexeme) (as : List α) :
    Parameters A T ls as → Parameters A U ls as
  | .none => .none
  | .some first others => .some (first.mono hTU) (others.mono (After.mono (Expression.mono hTU)))

/-- With more terms inside there are more terms. -/
theorem Term.mono (ls : List Lexeme) (a : α) : Term A T ls a → Term A U ls a
  | .negative c h => .negative c (hTU _ _ h)
  | .name h => .name h
  | .call c c' h value => .call c c' (h.mono hTU) value
  | .numeral h => .numeral h
  | .group c c' h => .group c c' (h.mono hTU)

theorem Definition.mono (ls : List Lexeme) (a : α) : Definition A T ls a → Definition A U ls a
  | .intro first values => .intro (first.mono hTU) (values.mono (After.mono (Expression.mono hTU)))

omit hTU

/-- A term that nests so deep at most nests any greater depth at most. -/
theorem termAt_mono {m n : Nat} (hmn : m ≤ n) (ls : List Lexeme) (a : α) (h : termAt A m ls a) :
    termAt A n ls a := by
  induction m generalizing n ls a with
  | zero => exact h.elim
  | succ m ih =>
    cases n with
    | zero => omega
    | succ n => exact Term.mono (fun ls a => ih (by omega) ls a) ls a h

/-! ## First lexemes -/

/-- There is a first lexeme, and a phrase may start with it. -/
def Opens (ls : List Lexeme) : Prop :=
  ∃ l ls', ls = l :: ls' ∧ ∀ c, l ≠ .stray c ∧ l ≠ .mark .closing c

/-- Whether a phrase can start there does not depend on what follows it. -/
theorem Opens.append (h : Opens ls) (ls' : List Lexeme) : Opens (ls ++ ls') := by
  obtain ⟨l, ls₁, rfl, hl⟩ := h
  exact ⟨l, ls₁ ++ ls', rfl, hl⟩

end Grammar

/-! ## What the reader makes of a text -/

open Grammar

namespace Scope

/-- The actions of the reader. -/
def actions (s : Scope) : Actions Expr where
  name cs e := ∀ position, s.symbol (String.ofList cs) position = .ok e
  call cs es e := ∃ name op, (∀ position,
    s.symbol (String.ofList cs) position = .ok (.sym name (.operator op))) ∧ e = .app op es
  numeral ds fs e := ∃ n, (∀ position, readNumeral position ds fs = .ok n) ∧ e = .num n
  negative e := s.apply .multiply [.num .minusOne, e]
  power := s.chain .power
  divisor e := e.isZero = false
  division := s.quotient
  multiplication negative e es :=
    s.join .multiply (if negative then negateFactors (e :: es) else e :: es)
  expression e es := s.join .add (e :: es)
  definition := s.chain (.define s.store)

end Scope

end Reckoner
