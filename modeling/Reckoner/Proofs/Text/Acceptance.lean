import Reckoner.Proofs.Evaluation
import Reckoner.Proofs.Grammar.Soundness
import Reckoner.Proofs.Text.RoundTrip
import Reckoner.Proofs.Text.Shown

/-!
# Typing back what is printed

What is printed for an expression of exact numbers and built-in operators is read again unless one
of two things shows in it: an equation elsewhere than in a chain around everything else, or an exact
zero after a slash. The first comes from a definition inside of another application, as in
`DEFINE(x,1)+2`, the second from a reciprocal of zero that is a factor, as in `x*0^(-1)`; both are
read where they are written as a call and as a power, but the writer prefers `=` and `/`.
-/

namespace Reckoner

open Grammar Reckoner.Expr

variable {s : Scope}

/-! ## Zeros after a slash -/

theorem Scope.functional_actions (s : Scope) : s.actions.Functional where
  name h h' := Except.ok.inj ((h 0).symm.trans (h' 0))
  call := by
    rintro cs es a b ⟨name, op, h, rfl⟩ ⟨name', op', h', rfl⟩
    cases (h 0).symm.trans (h' 0)
    rfl
  numeral := by
    rintro ds fs a b ⟨n, h, rfl⟩ ⟨n', h', rfl⟩
    cases (h 0).symm.trans (h' 0)
    rfl

namespace Expr

/-- A zero after a slash is read as a zero. -/
theorem exists_power_zero {d : Expr} (hs : s.IsArithmetic) (hd : d.MadeOf s.writable)
    (hzero : d.isZero = true) : ∃ depth a,
      Power s.actions (termAt s.actions depth)
        (lexemes (operandText Operator.multiply.precedence true d d.text).toList) a ∧
      a.isZero = true := by
  cases d with
  | sym name role => cases hzero
  | app op ps => cases hzero
  | num n =>
    cases n with
    | double x => cases madeOf_num.1 hd
    | unit => cases hzero
    | integer m =>
      obtain rfl : m = 0 := by simpa [isZero, Number.isZero] using hzero
      refine ⟨1, .num (.integer 0), ?_, rfl⟩
      have htext : operandText Operator.multiply.precedence true (Expr.num (.integer 0))
          (Expr.num (.integer 0)).text = decimalNat 0 := by
        decide
      rw [htext, (spells_decimalNat 0).lexemes]
      exact power_of_term (termAt_numeral (by decide))
    | fraction q =>
      obtain rfl : q = 0 := by simpa [isZero, Number.isZero] using hzero
      refine ⟨2, .num (.fraction 0), ?_, rfl⟩
      have hterms := (literalText_fraction hs (q := 0) (by decide) (by decide)).termsText
      have htext : operandText Operator.multiply.precedence true (Expr.num (.fraction 0))
          (Expr.num (.fraction 0)).text = "(" ++ Number.text (.fraction 0) ++ ")" := by
        decide
      rw [htext, hterms.spells.group.lexemes]
      exact power_of_term (Term.group '(' ')' hterms.join)

/-! ## When a text is read -/

/-- If what is printed is read again, however deep, then equations stand outside of everything else:
no equals sign of a derivation is inside of parentheses. -/
theorem equationsOutside_of_readWithin_text {e t : Expr} (he : e.MadeOf s.writable) {depth : ℕ}
    (h : s.readWithin depth e.text.toList = .ok t) : e.equationsOutside = true := by
  by_contra hequations
  obtain ⟨u, v, htext, hlevel⟩ := exists_equals_inside he (by simpa using hequations)
  have hequals : LexemeKind.equals.IsMark '=' := by decide
  have hlexemes : lexemes e.text.toList =
      lexemes u.toList ++ .mark .equals '=' :: lexemes v.toList := by
    have hlist : ("=" ++ v).toList = '=' :: v.toList := String.toList_append ..
    rw [htext, String.toList_append, hlist, lexemes_append (hequals.stands _), hequals.lexemes]
  have houtside := EqualsOutside.definition (Enclosed.termAt depth) _ _
    (Scope.definition_of_readWithin h)
  have hzero := houtside _ _ _ hlexemes
  rw [level_lexemes] at hzero
  omega

/-- If what is printed is read again, however deep, then no zero stands after a slash: it would be
the divisor there, as what is read for a divisor is unique. -/
theorem noZeroDivisor_of_readWithin_text {e t : Expr} (hs : s.IsArithmetic)
    (he : e.MadeOf s.writable) {depth : ℕ} (h : s.readWithin depth e.text.toList = .ok t) :
    e.NoZeroDivisor := by
  by_contra hzeros
  obtain ⟨d, u, v, hdivides⟩ := exists_dividesBy he hzeros
  obtain ⟨depth', a, hpower, ha⟩ := exists_power_zero hs hdivides.made hdivides.zero
  -- the slash cuts the lexemes in two, so its divisor is read from what stands behind it
  have hslash : LexemeKind.slash.IsMark '/' := by decide
  have hlexemes : lexemes e.text.toList = lexemes u.toList ++ .mark .slash '/' ::
      (lexemes (operandText Operator.multiply.precedence true d d.text).toList ++
        lexemes v.toList) := by
    have hlist : ∀ w x : String, ("/" ++ (w ++ x)).toList = '/' :: (w.toList ++ x.toList) := by
      intro w x
      rw [String.toList_append, String.toList_append]
      rfl
    rw [hdivides.text, String.toList_append, hlist, lexemes_append (hslash.stands _),
      hslash.lexemes, lexemes_append hdivides.ends.stands]
  have hdef := Scope.definition_of_readWithin h
  rw [hlexemes] at hdef
  have hdivisor : a.isZero = false :=
    divisor_of_definition s.functional_actions hdef hpower hdivides.ends.ends
  rw [hdivisor] at ha
  cases ha

/-- What is printed for an expression is read again exactly if equations stand outside of everything
else and no zero after a slash. -/
theorem exists_readWithin_render_iff {e : Expr} (hs : s.IsArithmetic) (he : e.MadeOf s.writable)
    {out : String} (hout : e.render = .ok out) {limit : ℕ} (hdeep : e.deeperThan limit = false) :
    (∃ t, s.readWithin (limit + 1) out.toList = .ok t) ↔
      e.equationsOutside = true ∧ e.NoZeroDivisor := by
  obtain ⟨htext, rfl⟩ := render_eq_ok hout
  constructor
  · rintro ⟨t, ht⟩
    exact ⟨equationsOutside_of_readWithin_text he ht, noZeroDivisor_of_readWithin_text hs he ht⟩
  · rintro ⟨hequations, hzero⟩
    obtain ⟨ls, hdefinition⟩ := exists_definitionText hs he htext hequations hzero hdeep
    obtain ⟨a, ha⟩ := hdefinition.derives
    refine ⟨a, Scope.readWithin_eq_ok ?_⟩
    rw [hdefinition.spells.lexemes]
    exact ha

end Expr

end Reckoner
