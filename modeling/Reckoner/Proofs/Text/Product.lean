import Reckoner.Proofs.Grammar.Derivation
import Reckoner.Proofs.Interpretation

/-!
# Products as they are written

In a text, products within products stand without parentheses: the factors of the inner one become
factors of the outer one, and a slash after it divides its last factor. `Product` derives a
multiplication from its end, so that a text can be extended by one more factor, one more divisor or
another whole product.
-/

namespace Reckoner

open Grammar

/-! ## Lists of phrases -/

namespace Grammar

variable {α : Type} {P : Phrase α} {ls ls' : List Lexeme}

theorem Many.append {as bs : List α} (h : Many P ls as) (h' : Many P ls' bs) :
    Many P (ls ++ ls') (as ++ bs) := by
  induction h with
  | nil => exact h'
  | cons head _ ih =>
    rw [List.append_assoc, List.cons_append]
    exact .cons head ih

theorem Many.single {a : α} (h : P ls a) : Many P ls [a] := by
  simpa using Many.cons h .nil

theorem Many.exists_cons {a : α} {as : List α} (h : Many P ls (a :: as)) :
    ∃ ls₁ ls₂, ls = ls₁ ++ ls₂ ∧ P ls₁ a ∧ Many P ls₂ as := by
  cases h with
  | cons head tail => exact ⟨_, _, rfl, head, tail⟩

theorem Many.concat {as : List α} {a : α} (h : Many P ls as) (h' : P ls' a) :
    Many P (ls ++ ls') (as ++ [a]) := h.append (.single h')

end Grammar

/-! ## Factors -/

/-- The factors of a product that is being read, of which the last one may still be divided. -/
structure Factors where
  /-- The factors before the last one. -/
  closed : List Expr
  /-- What is divided in the last factor. -/
  numerator : Expr
  /-- What it is divided by. -/
  divisors : List Expr

namespace Factors

/-- A single factor. -/
def single (e : Expr) : Factors := ⟨[], e, []⟩

/-- All factors. -/
def list (s : Scope) (f : Factors) : List Expr := f.closed ++ [s.quotient f.numerator f.divisors]

/-- Further factors. -/
def times (s : Scope) (f g : Factors) : Factors := ⟨f.list s ++ g.closed, g.numerator, g.divisors⟩

/-- One more divisor. -/
def divide (f : Factors) (d : Expr) : Factors := { f with divisors := f.divisors ++ [d] }

/-- The value of the product. -/
def value (I : Interpretation) (f : Factors) : ℚ :=
  (f.closed.map (Expr.value I)).prod *
    (f.numerator.value I * (f.divisors.map fun d => (d.value I)⁻¹).prod)

variable {s : Scope} {I : Interpretation} {f g : Factors}

@[simp] theorem value_single (e : Expr) : (single e).value I = e.value I := by
  simp [value, single]

/-- The product of the factors has their value. -/
theorem prod_list (hs : s.IsArithmetic) : ((f.list s).map (Expr.value I)).prod = f.value I := by
  simp [list, value, hs.value_quotient]

/-- The value of a product within a product is the product of the values. -/
theorem value_times (hs : s.IsArithmetic) : (f.times s g).value I = f.value I * g.value I := by
  rw [value, times, List.map_append, List.prod_append, prod_list hs, mul_assoc]
  rfl

theorem value_divide (d : Expr) : (f.divide d).value I = f.value I * (d.value I)⁻¹ := by
  simp [value, divide, mul_assoc]

end Factors

/-! ## Products -/

/-- A multiplication, derived from its end. -/
inductive Product (s : Scope) (T : Phrase Expr) : List Lexeme → Factors → Prop where
  | first {ls e} (h : Power s.actions T ls e) : Product s T ls (.single e)
  | times {ls ls' f e} (h : Product s T ls f) (h' : Power s.actions T ls' e) :
      Product s T (ls ++ .mark .star '*' :: ls') (f.times s (.single e))
  | divide {ls ls' f d} (h : Product s T ls f) (h' : Divisor s.actions T ls' d) :
      Product s T (ls ++ .mark .slash '/' :: ls') (f.divide d)

namespace Product

variable {s : Scope} {T : Phrase Expr} {ls ls' : List Lexeme} {f g : Factors}

/-- A star joins two products to one. -/
theorem append (h : Product s T ls f) (h' : Product s T ls' g) :
    Product s T (ls ++ .mark .star '*' :: ls') (f.times s g) := by
  induction h' with
  | first h' => exact h.times h'
  | @times ls₁ ls₂ g e _ h₂ ih =>
    have hall := ih.times h₂
    rw [List.append_assoc, List.cons_append] at hall
    have hf : (f.times s g).times s (.single e) = f.times s (g.times s (.single e)) := by
      simp [Factors.times, Factors.list, Factors.single]
    rw [← hf]
    exact hall
  | divide _ h₂ ih =>
    have hall := ih.divide h₂
    rw [List.append_assoc, List.cons_append] at hall
    exact hall

/-- Whatever division comes last, divisions joined by stars. -/
def Extends (s : Scope) (T : Phrase Expr) (ls : List Lexeme) (es : List Expr) : Prop :=
  ∀ ls' e', Division s.actions T ls' e' → ∃ ls₁ ls₂ e₁ es₂, ls ++ ls' = ls₁ ++ ls₂ ∧
    Division s.actions T ls₁ e₁ ∧ Many (After .star (Division s.actions T)) ls₂ es₂ ∧
    es ++ [e'] = e₁ :: es₂

/-- The last division of a product, and what is before it. -/
theorem exists_last (h : Product s T ls f) : ∃ ls₁ ls₂ ls₃, ls = ls₁ ++ (ls₂ ++ ls₃) ∧
    Extends s T ls₁ f.closed ∧ Power s.actions T ls₂ f.numerator ∧
    Many (After .slash (Divisor s.actions T)) ls₃ f.divisors := by
  induction h with
  | @first ls e h =>
    refine ⟨[], ls, [], by simp, fun ls' e' h' => ?_, h, .nil⟩
    exact ⟨ls', [], e', [], by simp, h', .nil, rfl⟩
  | @times ls ls' f e _ h' ih =>
    obtain ⟨ls₁, ls₂, ls₃, rfl, hbefore, hnum, hdiv⟩ := ih
    refine ⟨ls₁ ++ (ls₂ ++ ls₃) ++ [.mark .star '*'], ls', [], by simp, fun ls₄ e₄ h₄ => ?_, h',
      .nil⟩
    obtain ⟨ls₅, ls₆, e₅, es₆, hls, hfirst, hmany, hes⟩ := hbefore _ _ (.intro hnum hdiv)
    refine ⟨ls₅, ls₆ ++ .mark .star '*' :: ls₄, e₅, es₆ ++ [e₄], ?_, hfirst,
      hmany.concat (.intro '*' h₄), ?_⟩
    · rw [hls]
      simp
    · have hquot : s.actions.division = s.quotient := rfl
      rw [hquot] at hes
      simp [Factors.times, Factors.list, Factors.single, hes]
  | @divide ls ls' f d _ h' ih =>
    obtain ⟨ls₁, ls₂, ls₃, rfl, hbefore, hnum, hdiv⟩ := ih
    exact ⟨ls₁, ls₂, ls₃ ++ .mark .slash '/' :: ls', by simp, hbefore, hnum,
      hdiv.concat (.intro '/' h')⟩

/-- A product is derived as a multiplication, with a sign or without. -/
theorem multiplication (h : Product s T ls f) (negative : Bool) :
    Multiplication s.actions T negative ls
      (s.join .multiply (if negative then negateFactors (f.list s) else f.list s)) := by
  obtain ⟨ls₁, ls₂, ls₃, rfl, hbefore, hnum, hdiv⟩ := h.exists_last
  obtain ⟨ls₄, ls₅, e₄, es₅, hls, hfirst, hmany, hes⟩ := hbefore _ _ (.intro hnum hdiv)
  have hlist : f.list s = e₄ :: es₅ := hes
  rw [hls, hlist]
  exact .intro hfirst hmany

end Product

/-! ## Signs -/

/-- Minus signs in a row. -/
def minusSigns (n : ℕ) : List Lexeme := List.replicate n (.mark .minus '-')

@[simp] theorem minusSigns_zero : minusSigns 0 = [] := rfl

theorem minusSigns_succ (n : ℕ) : minusSigns (n + 1) = .mark .minus '-' :: minusSigns n := rfl

theorem power_of_term {s : Scope} {T : Phrase Expr} {ls : List Lexeme} {e : Expr} (h : T ls e) :
    Power s.actions T ls e := by
  have hpower := Power.intro (A := s.actions) h .nil
  rw [List.append_nil] at hpower
  exact hpower

/-- A caret and a term raise a power once more. -/
theorem power_concat {s : Scope} (hs : s.IsArithmetic) {T : Phrase Expr} {ls ls' : List Lexeme}
    {e x : Expr} (h : Power s.actions T ls e) (h' : T ls' x) :
    Power s.actions T (ls ++ .mark .caret '^' :: ls') (.app .power [e, x]) := by
  obtain ⟨base, exponents⟩ := h
  have hpower := Power.intro (A := s.actions) base (exponents.concat (.intro '^' h'))
  have hvalue : ∀ e es, s.actions.power e (es ++ [x]) = .app .power [s.actions.power e es, x] :=
    fun e es => hs.chain_concat e es x
  rw [← List.append_assoc, hvalue] at hpower
  exact hpower

/-- Minus signs on a term negate its value, and the grade counts them. -/
theorem exists_termAt_minusSigns {s : Scope} (hs : s.IsArithmetic) {ls : List Lexeme} {e : Expr}
    {n : ℕ} (h : termAt s.actions n ls e) (i : ℕ) :
    ∃ e', termAt s.actions (i + n) (minusSigns i ++ ls) e' ∧
      (∀ I, e'.value I = (-1) ^ i * e.value I) ∧ (e'.isNumber = true → i = 0) ∧
      (i = 0 → e' = e) := by
  induction i with
  | zero => exact ⟨e, by simpa using h, by simp, fun _ => rfl, fun _ => rfl⟩
  | succ i ih =>
    obtain ⟨e', h', hvalue, -⟩ := ih
    refine ⟨s.apply .multiply [.num .minusOne, e'], ?_, fun I => ?_, (nomatch ·), by simp⟩
    · rw [minusSigns_succ, Nat.add_right_comm]
      exact Term.negative '-' h'
    · rw [hs.apply_eq Operator.isArithmetic_multiply, Expr.value_multiply]
      simp [hvalue, Number.value, Number.minusOne, pow_succ]

end Reckoner
