import Reckoner.Proofs.Grammar.Language
import Reckoner.Proofs.Grammar.Transfer
import Reckoner.Proofs.Text.RoundTrip
import Mathlib.Tactic.NormNum

/-!
# Texts as arithmetic

There are no negations, differences and quotients in an expression: signs and slashes of a text
become factors and reciprocals. `arithmetic` gives the phrases of the grammar the values that they
have by the rules of school arithmetic, with no expression in between, and the value of the
expression that a text is read to is the value of the text by these rules.
-/

namespace Reckoner

open Grammar

/-! ## The rules of arithmetic -/

namespace Interpretation

/-- The values of phrases: sums, differences, products and quotients are what they are called, `^`
is the power of the interpretation from left to right, a minus sign before a multiplication negates
all of it and one before a term just the term, and a call has the operator's own meaning. -/
def arithmetic (I : Interpretation) : Actions ℚ where
  name cs v := v = I.symbol (String.ofList cs)
  call cs vs v := ∃ op : Operator, op.IsArithmetic ∧ op.name = String.ofList cs ∧ v = I.apply op vs
  numeral ds fs v := fs = none ∧ v = digitsValue ds
  negative v := -v
  power b es := es.foldl I.power b
  divisor _ := True
  division v ds := ds.foldl (fun a b => a / b) v
  multiplication negative v vs := if negative then -(v * vs.prod) else v * vs.prod
  expression v vs := v + vs.sum
  definition v _ := v

end Interpretation

theorem Operator.IsArithmetic.eq_of_name_eq {op op' : Operator} (h : op.IsArithmetic)
    (h' : op'.IsArithmetic) (hname : op.name = op'.name) : op = op' := by
  rcases h with rfl | rfl | rfl <;> rcases h' with rfl | rfl | rfl <;>
    first | rfl | simp [Operator.name] at hname

/-- The rules of arithmetic leave no choice, so every phrase has at most one value. -/
theorem Interpretation.functional_arithmetic (I : Interpretation) : I.arithmetic.Functional where
  name h h' := h.trans h'.symm
  call := by
    rintro cs vs v w ⟨op, hop, hname, rfl⟩ ⟨op', hop', hname', rfl⟩
    rw [hop.eq_of_name_eq hop' (hname.trans hname'.symm)]
  numeral h h' := h.2.trans h'.2.symm

/-! ## Expressions and values -/

/-- A chain of divisions divides by the product of the divisors. -/
theorem foldl_div (v : ℚ) (ds : List ℚ) :
    ds.foldl (fun a b => a / b) v = v * (ds.map fun d => d⁻¹).prod := by
  induction ds generalizing v with
  | nil => simp
  | cons d ds ih =>
    rw [List.foldl_cons, ih, List.map_cons, List.prod_cons, div_eq_mul_inv, mul_assoc]

namespace Scope

variable {s : Scope}

/-- There are no operators but the built-in ones, and they go by their names. -/
structure IsBuiltIn (s : Scope) : Prop where
  /-- The arithmetic operators have their names. -/
  arithmetic : s.IsArithmetic
  /-- There are no other names, apart from the one of definitions. -/
  only : ∀ {name op}, s.operator? name = some op → name ≠ "DEFINE" →
    op.name = name ∧ op.IsArithmetic

/-- A chain of powers has the value of raising once for each exponent, from the left. -/
theorem IsArithmetic.value_chain (hs : s.IsArithmetic) (I : Interpretation) (e : Expr)
    (es : List Expr) :
    (s.chain .power e es).value I = (es.map (Expr.value I)).foldl I.power (e.value I) := by
  unfold chain
  induction es generalizing e with
  | nil => rfl
  | cons x es ih =>
    rw [List.foldl_cons, ih, List.map_cons, List.foldl_cons,
      hs.apply_eq Operator.isArithmetic_power, Expr.value_power]

/-- The product with minus one is the negative. -/
theorem IsArithmetic.value_negative (hs : s.IsArithmetic) (I : Interpretation) (e : Expr) :
    (s.apply .multiply [.num .minusOne, e]).value I = -e.value I := by
  rw [hs.apply_eq Operator.isArithmetic_multiply, Expr.value_multiply]
  simp [Number.value, Number.minusOne]

/-- Factors have the product of their values, with the sign in front of them. -/
theorem IsArithmetic.value_multiplication (hs : s.IsArithmetic) (I : Interpretation)
    (negative : Bool) (e : Expr) (es : List Expr) :
    (s.join .multiply (if negative then negateFactors (e :: es) else e :: es)).value I =
      if negative then -(e.value I * (es.map (Expr.value I)).prod)
      else e.value I * (es.map (Expr.value I)).prod := by
  rw [hs.value_join I (.inr rfl)]
  cases negative with
  | true =>
    simp only [if_true]
    exact prod_negateFactors I (e :: es)
  | false => simp [Interpretation.apply]

/-- A numeral has the value of its digits. -/
theorem value_numeral {ds : List Char} {e : Expr} (I : Interpretation)
    (h : s.actions.numeral ds none e) : e.value I = digitsValue ds := by
  obtain ⟨n, hn, rfl⟩ := h
  have hread := hn 0
  unfold readNumeral at hread
  split_ifs at hread
  cases hread
  simp [Number.value]

/-- The value of an expression carries what the reader makes of a plain text to arithmetic. -/
theorem IsBuiltIn.maps_value (hs : s.IsBuiltIn) (I : Interpretation) :
    s.actions.Maps Lexeme.IsPlain (Expr.value I) I.arithmetic where
  name {cs e} hplain h := by
    rcases symbol_eq_ok (h 0) with ⟨-, op, hop, rfl⟩ | ⟨-, rfl⟩
    · obtain ⟨hname, -⟩ := hs.only hop hplain
      rw [Expr.ofOperator, Expr.value_sym, hname]
      rfl
    · split
      · exact Expr.value_sym _ _
      · exact Expr.value_sym _ _
  call {cs es e} hplain h := by
    obtain ⟨name, op, hsym, rfl⟩ := h
    rcases symbol_eq_ok (hsym 0) with ⟨-, op', hop, heq⟩ | ⟨-, heq⟩
    · cases heq
      obtain ⟨hname, harith⟩ := hs.only hop hplain
      exact ⟨_, harith, hname, Expr.value_app _ _⟩
    · split at heq <;> cases heq
  numeral {ds fs e} hplain h := by
    obtain rfl : fs = none := hplain
    exact ⟨rfl, value_numeral I h⟩
  negative := hs.arithmetic.value_negative I
  power := hs.arithmetic.value_chain I
  divisor _ := trivial
  division e ds := by
    have hquotient := hs.arithmetic.value_quotient I e ds
    show (s.quotient e ds).value I = (ds.map (Expr.value I)).foldl (fun a b => a / b) (e.value I)
    rw [hquotient, foldl_div, List.map_map]
    rfl
  multiplication negative := hs.arithmetic.value_multiplication I negative
  expression e es := by
    show (s.join .add (e :: es)).value I = e.value I + (es.map (Expr.value I)).sum
    rw [hs.arithmetic.value_join I (.inl rfl)]
    simp [Interpretation.apply]

/-- A plain text is an expression without definitions. -/
theorem expression_of_definition {depth : Nat} {ls : List Lexeme} {e : Expr}
    (hls : ∀ l ∈ ls, l.IsPlain) (h : Definition s.actions (termAt s.actions depth) ls e) :
    Expression s.actions (termAt s.actions depth) ls e := by
  obtain ⟨first, values⟩ := h
  cases values with
  | nil =>
    rw [List.append_nil]
    exact first
  | cons head tail =>
    obtain ⟨c, -⟩ := head
    have hplain := hls (.mark .equals c) (by simp)
    exact absurd rfl hplain

end Scope

/-! ## Registries -/

namespace Registry

variable {r : Registry} {id : StoreId}

/-- As long as no operator was registered, the names of a registry are the built-in ones. -/
theorem isBuiltIn_scope (hr : r.operators = (fresh id).operators) : (r.scope id).IsBuiltIn := by
  have hoperator : (r.scope id).operator? = ((fresh id).scope id).operator? := by
    simp only [scope, hr]
  refine ⟨fun op hop => ?_, fun {name op} h hname => ?_⟩
  · rw [hoperator]
    exact isArithmetic_fresh op hop
  · rw [hoperator] at h
    exact operator?_fresh h hname

/-- A text without doubles and definitions that is read for a registry with the built-in operators,
whatever its variables, has one value by the rules of arithmetic, and it is the value of the
expression that it is read to. -/
theorem arithmetic_iff_value {text : String} {depth : Nat} {e : Expr}
    (hr : r.operators = (fresh id).operators) (htext : IsPlainText text)
    (h : (r.scope id).readWithin depth text.toList = .ok e) (I : Interpretation) (v : ℚ) :
    (∃ n, Expression I.arithmetic (termAt I.arithmetic n) (lexemes text.toList) v) ↔
      v = e.value I := by
  have hmaps := (isBuiltIn_scope hr).maps_value I
  have hexpression := Scope.expression_of_definition htext (Scope.definition_of_readWithin h)
  have hvalue := Carries.expression hmaps (carries_termAt hmaps depth) _ _ htext hexpression
  constructor
  · rintro ⟨n, hn⟩
    exact expression_unique I.functional_arithmetic hn hvalue
  · rintro rfl
    exact ⟨depth, hvalue⟩

/-- A registry with the built-in operators and a variable. -/
def bound : Registry := { fresh 0 with bindings := ⟨[("x", .int 5)]⟩ }

/-- Signs, ratios, chains of divisions and calls, for a registry with a variable. -/
theorem arithmetic_iff_value_signs :
    ∃ (r : Registry) (e : Expr), r.operators = (fresh 0).operators ∧
    (r.scope 0).read "-(-2)*x/3/y-3/4*-x^2^z+ADD(1,-y)/(-MULTIPLY())" = .ok e ∧
    ∀ (I : Interpretation) (v : ℚ), (∃ n, Expression I.arithmetic (termAt I.arithmetic n)
      (lexemes "-(-2)*x/3/y-3/4*-x^2^z+ADD(1,-y)/(-MULTIPLY())".toList) v) ↔ v = e.value I := by
  have hany : (((bound.scope 0).read
      "-(-2)*x/3/y-3/4*-x^2^z+ADD(1,-y)/(-MULTIPLY())").toOption.any fun _ => true) = true := by
    decide +kernel
  obtain ⟨e, he, -⟩ := exists_eq_ok hany
  have htext : IsPlainText "-(-2)*x/3/y-3/4*-x^2^z+ADD(1,-y)/(-MULTIPLY())" := by decide +kernel
  have hr : bound.operators = (fresh 0).operators := rfl
  exact ⟨bound, e, hr, he, arithmetic_iff_value hr htext he⟩

end Registry

end Reckoner
