import Reckoner.Proofs.Calculator
import Reckoner.Proofs.Evaluation.Rational
import Reckoner.Proofs.Text.Arithmetic

/-!
# Calculating exact numbers

A text of integer numerals, signs, stars, slashes and parentheses is calculated to a number, whose
value is the value of the text by the rules of arithmetic. Of its divisors it is asked that they are
not zero and that they have no more bits than a reciprocal may have. The reader turns one integer
over one other into a ratio literal, and any other quotient into a product with reciprocals.
-/

namespace Reckoner

open Grammar Reckoner.Expr

/-! ## Texts without names -/

/-- The lexeme is an integer numeral, a sign, a star, a slash or a parenthesis. -/
def Lexeme.IsRational : Lexeme → Prop
  | .numeral _ fraction => fraction = none
  | .mark kind _ => kind ∈ [.plus, .minus, .star, .slash, .opening, .closing]
  | _ => False

instance : DecidablePred Lexeme.IsRational := fun l =>
  match l with
  | .name _ => .isFalse id
  | .numeral _ fraction => inferInstanceAs (Decidable (fraction = none))
  | .mark kind _ =>
    inferInstanceAs (Decidable (kind ∈ [.plus, .minus, .star, .slash, .opening, .closing]))
  | .stray _ => .isFalse id

/-- There are only integer numerals, signs, stars, slashes and parentheses in the text. -/
def IsRationalText (text : String) : Prop := ∀ l ∈ lexemes text.toList, l.IsRational

instance (text : String) : Decidable (IsRationalText text) :=
  inferInstanceAs (Decidable (∀ l ∈ lexemes text.toList, l.IsRational))

/-- The rules of arithmetic, with the limits of exact numbers: a numeral has at most
`maxDecimalDigits` digits, and a divisor is not zero and has at most `maxExactBits` bits. -/
def Interpretation.exactArithmetic (I : Interpretation) : Actions ℚ :=
  { I.arithmetic with
    numeral := fun ds fs v => ds.length ≤ maxDecimalDigits ∧ I.arithmetic.numeral ds fs v
    divisor := fun v => v ≠ 0 ∧ Number.HasExactBits v }

/-! ## What the reader makes of a text -/

namespace Scope

variable {s : Scope} {v : ℚ} {vs : List ℚ} {e : Expr} {es : List Expr}

theorem IsArithmetic.computes_join (hs : s.IsArithmetic) {op : Operator} (hop : op.IsMonoidal)
    (h : List.Forall₂ Computes vs es) (hv : op.value? vs = some v) : Computes v (s.join op es) := by
  unfold join
  split
  · next e =>
    cases h with
    | cons he hnil =>
      cases hnil
      rw [Operator.value?_singleton hv]
      exact he
  · rw [hs.apply_eq hop.isArithmetic]
    exact computes_app hop h hv

theorem computes_minusOne : Computes (-1) (.num .minusOne) :=
  computes_num (by simp [Number.minusOne])

theorem computes_negateFactors (h : Computes v e) (hes : List.Forall₂ Computes vs es) :
    ∃ ws, List.Forall₂ Computes ws (negateFactors (e :: es)) ∧ ws.prod = -(v * vs.prod) := by
  have hminus : List.Forall₂ Computes (-1 :: v :: vs) (.num .minusOne :: e :: es) :=
    .cons computes_minusOne (.cons h hes)
  have hprod : (-1 :: v :: vs).prod = -(v * vs.prod) := by simp
  cases e with
  | num n =>
    have hn := computes_num_iff.1 h
    cases hneg : n.negateExact? with
    | none =>
      simp only [negateFactors, hneg]
      exact ⟨_, hminus, hprod⟩
    | some m =>
      simp only [negateFactors, hneg]
      refine ⟨-v :: vs, .cons (computes_num ?_) hes, by simp⟩
      cases n <;> cases hn <;> cases hneg <;> simp
  | sym name role => exact ⟨_, hminus, hprod⟩
  | app op ps => exact ⟨_, hminus, hprod⟩

theorem IsArithmetic.computes_reciprocals (hs : s.IsArithmetic) (hes : List.Forall₂ Computes vs es)
    (hvs : ∀ d ∈ vs, d ≠ 0 ∧ Number.HasExactBits d) :
    List.Forall₂ Computes (vs.map fun d => d⁻¹)
      (es.map fun d => s.apply .power [d, .num .minusOne]) := by
  induction hes with
  | nil => exact .nil
  | @cons d e _ _ hd _ ih =>
    rw [List.forall_mem_cons] at hvs
    obtain ⟨⟨hne, hbits⟩, hvs⟩ := hvs
    refine .cons ?_ (ih hvs)
    show Computes d⁻¹ (s.apply .power [e, .num .minusOne])
    rw [hs.apply_eq Operator.isArithmetic_power]
    exact computes_reciprocal hd hne hbits

theorem IsArithmetic.computes_quotient (hs : s.IsArithmetic) (h : Computes v e)
    (hes : List.Forall₂ Computes vs es) (hvs : ∀ d ∈ vs, d ≠ 0 ∧ Number.HasExactBits d) :
    Computes (vs.foldl (fun a b => a / b) v) (s.quotient e es) := by
  rw [foldl_div]
  unfold quotient
  split
  · cases hes
    simpa using h
  · next a b =>
    -- a ratio literal
    cases hes with
    | cons hb hnil =>
      cases hnil
      have ha' := computes_num_iff.1 h
      have hb' := computes_num_iff.1 hb
      cases ha'
      cases hb'
      exact computes_num (by simp [Rat.divInt_eq_div, div_eq_mul_inv])
  · rw [hs.apply_eq Operator.isArithmetic_multiply]
    refine computes_app (.inr rfl) (.cons h (hs.computes_reciprocals hes hvs)) ?_
    rw [Operator.value?, List.prod_cons]

/-- What the reader makes of the parts of a text computes what the rules of arithmetic make of
them. -/
theorem IsArithmetic.relates_computes (hs : s.IsArithmetic) (I : Interpretation) :
    I.exactArithmetic.Relates Lexeme.IsRational Computes s.trees where
  name hF := hF.elim
  call hF := hF.elim
  numeral {ds fs v} _ h := by
    obtain ⟨hlength, rfl, rfl⟩ := h
    exact ⟨_, computes_num (by simp), hlength, rfl⟩
  negative {v e} h := by
    show Computes (-v) (s.apply .multiply [.num .minusOne, e])
    rw [hs.apply_eq Operator.isArithmetic_multiply]
    refine computes_app (.inr rfl) (.cons computes_minusOne (.cons h .nil)) ?_
    simp [Operator.value?]
  power {v e vs es} h hes hcaret := by
    cases hes with
    | nil => exact h
    -- the texts in question have no powers
    | cons hd tail =>
      obtain ⟨c, hc⟩ := hcaret (by simp)
      exact absurd hc (by simp [Lexeme.IsRational])
  divisor {v e} h hv := by
    show e.isZero = false
    cases e with
    | num n =>
      by_contra hzero
      have hn := Number.toRat?_of_isZero (Bool.not_eq_false _ ▸ hzero)
      rw [computes_num_iff.1 h] at hn
      exact hv.1 (Option.some.inj hn)
    -- the reader takes nothing but a number for zero
    | sym name role => rfl
    | app op ps => rfl
  division h hes hvs := by
    rw [← actions_division]
    exact hs.computes_quotient h hes hvs
  multiplication {v e vs es} negative h hes := by
    rw [← actions_multiplication]
    cases negative with
    | true =>
      obtain ⟨ws, hws, hprod⟩ := computes_negateFactors h hes
      refine hs.computes_join (.inr rfl) hws ?_
      rw [Operator.value?, hprod]
      rfl
    | false =>
      refine hs.computes_join (.inr rfl) (.cons h hes) ?_
      rw [Operator.value?, List.prod_cons]
      rfl
  expression {v e vs es} h hes := by
    rw [← actions_expression]
    refine hs.computes_join (.inl rfl) (.cons h hes) ?_
    rw [Operator.value?, List.sum_cons]
    rfl

end Scope

/-! ## What is calculated -/

namespace Calculator

variable {c : Calculator} {text : String} {s : Stores} {I : Interpretation} {v : ℚ}

/-- A text of exact numbers that has a value by the rules of arithmetic, within the limits on
numerals, divisors and nesting, is read, and calculated to a number of that value. The number is an
integer if it is whole and a ratio in lowest terms if it is not, except that a whole ratio literal
may be handed on. -/
theorem calculate_exactArithmetic
    (hr : (s.registry c.store).operators = (Registry.fresh c.store).operators)
    (htext : IsRationalText text)
    (hv : Expression I.exactArithmetic (termAt I.exactArithmetic maxDepth)
      (lexemes text.toList) v) :
    ∃ t, (c.read text s).value = .ok t ∧ (t.deeperThan maxDepth = false →
      ∃ n : Number, (c.calculate text s).value = .ok (.num n) ∧ n.toRat? = some v ∧
        (n.plain = .ofRat v ∨ HandedOn v t)) := by
  have hrel := (Registry.isBuiltIn_scope hr).arithmetic.relates_computes I
  obtain ⟨t, hcomputes, ht⟩ :=
    Transfers.expression hrel (transfers_termAt hrel maxDepth) _ _ htext hv
  have hread : ((s.registry c.store).scope c.store).read text = .ok t := by
    refine Scope.readWithin_iff.2 ⟨_, splits_lexemes _, ?_⟩
    have hdef := Definition.intro ht (Many.nil (P := After .equals (Expression _ _)))
    rwa [List.append_nil] at hdef
  refine ⟨t, by rw [read_of_ok hread], fun hdeep => ?_⟩
  obtain ⟨n, hn, hvalue, hfrom⟩ := hcomputes maxDepth s hdeep
  refine ⟨n, ?_, hvalue, hfrom.imp_left fun hcanonical => ?_⟩
  · rw [calculate_of_ok hread, value_evaluate, Expr.evaluate, hn]
    rfl
  · rw [hcanonical.plain_eq, Number.value_eq hvalue]

/-- The difference of an integer and a quotient of two integers. -/
theorem calculate_exactArithmetic_difference :
    ∃ t, ((Calculator.mk 0).read "1-6/4" .fresh).value = .ok t ∧ t.deeperThan maxDepth = false ∧
      ∃ n : Number, ((Calculator.mk 0).calculate "1-6/4" .fresh).value = .ok (.num n) ∧
        n.toRat? = some (-1 / 2) ∧ (n.plain = .ofRat (-1 / 2) ∨ HandedOn (-1 / 2) t) := by
  have htext : IsRationalText "1-6/4" := by decide +kernel
  have hlexemes : lexemes "1-6/4".toList = [.numeral ['1'] none, .mark .minus '-',
      .numeral ['6'] none, .mark .slash '/', .numeral ['4'] none] := by
    decide +kernel
  have hnumeral : ∀ (d : Char) (n : ℕ), digitsValue [d] = n →
      Power squares.exactArithmetic (termAt squares.exactArithmetic maxDepth) [.numeral [d] none] n :=
    fun d n hn => .intro (Term.numeral (A := squares.exactArithmetic)
      (show _ ∧ _ ∧ _ from ⟨by simp [maxDecimalDigits], rfl, by rw [hn]⟩)) .nil
  have hone := hnumeral '1' 1 rfl
  have hsix := hnumeral '6' 6 rfl
  have hfour := hnumeral '4' 4 rfl
  have hdivisor : Divisor squares.exactArithmetic _ _ ((4 : ℕ) : ℚ) :=
    ⟨hfour, by norm_num, by decide⟩
  have hquotient := Division.intro hsix (.cons (.intro '/' hdivisor) .nil)
  have hfirst := Leading.unsigned (.intro (.intro hone .nil) .nil) (by simp [Unsigned])
  have hsecond := Signed.minus (.intro '-' (.intro hquotient .nil))
  have hall := Expression.intro hfirst (.cons hsecond .nil)
  have hvalue : Expression squares.exactArithmetic (termAt squares.exactArithmetic maxDepth)
      (lexemes "1-6/4".toList) (-1 / 2) := by
    rw [hlexemes]
    convert hall using 1
    · rfl
    · show (-1 / 2 : ℚ) = (1 : ℕ) * [].prod + [-((6 : ℕ) / (4 : ℕ) * [].prod : ℚ)].sum
      norm_num
  have hany : ((Calculator.mk 0).read "1-6/4" .fresh).value.toOption.any (fun t =>
      decide (t.deeperThan maxDepth = false)) = true := by
    decide +kernel
  obtain ⟨t, ht, hdeep⟩ := exists_eq_ok hany
  obtain ⟨t', ht', hcalculate⟩ :=
    calculate_exactArithmetic (c := Calculator.mk 0) (s := .fresh) (I := squares) rfl htext hvalue
  obtain rfl : t = t' := Except.ok.inj (ht.symm.trans ht')
  exact ⟨t, ht, of_decide_eq_true hdeep, hcalculate (of_decide_eq_true hdeep)⟩

/-- Four divided by two stays a ratio. -/
theorem calculate_whole_ratio : IsRationalText "4/2" ∧
    ∃ r, ((Calculator.mk 0).calculate "4/2" .fresh).value = .ok r ∧
      r.same (.num (.fraction 2)) = true ∧ r.same (.int 2) = false := by
  have hany : ((Calculator.mk 0).calculate "4/2" .fresh).value.toOption.any (fun r =>
      decide (r.same (.num (.fraction 2)) = true ∧ r.same (.int 2) = false)) = true := by
    decide +kernel
  obtain ⟨r, hr, hsame⟩ := exists_eq_ok hany
  exact ⟨by decide +kernel, r, hr, of_decide_eq_true hsame⟩

end Calculator

end Reckoner
