import Reckoner.Proofs.Text.Form

/-!
# The text of a literal

The decimal text of a literal is read back as the literal itself, a negative one by the minus sign
that an expression may start with.
-/

namespace Reckoner

open Grammar Reckoner.Expr

variable {s : Scope}

theorem length_toDigits_of_hasDecimal {m : ℤ} (h : hasDecimal m = true) :
    (Nat.toDigits 10 m.natAbs).length ≤ maxDecimalDigits := by
  have hpos : 0 < maxDecimalDigits := by decide
  unfold hasDecimal at h
  -- the power is not to be computed
  generalize maxDecimalDigits = d at h hpos ⊢
  exact (Nat.length_toDigits_le_iff (by omega) hpos).2 (of_decide_eq_true h)

/-- The digits of a number that may be written are read as that number. -/
theorem readNumeral_toDigits {k : ℕ} (hk : (Nat.toDigits 10 k).length ≤ maxDecimalDigits)
    (position : ℕ) : readNumeral position (Nat.toDigits 10 k) none = .ok (.integer k) := by
  have hvalue : digitsValue (Nat.toDigits 10 k) = k := Nat.ofDigitChars_ten_toDigits
  simp [readNumeral, Nat.not_lt.2 hk, hvalue]

/-- The digits of a number are a term by themselves. -/
theorem termAt_numeral {k : ℕ} (hk : (Nat.toDigits 10 k).length ≤ maxDecimalDigits) :
    termAt s.actions 1 [.numeral (Nat.toDigits 10 k) none] (.num (.integer k)) :=
  Term.numeral ⟨_, readNumeral_toDigits hk, rfl⟩

/-- With minus signs in front they have the value with these signs. -/
theorem exists_power_numeral (hs : s.IsArithmetic) {k : ℕ}
    (hk : (Nat.toDigits 10 k).length ≤ maxDecimalDigits)
    {n i : ℕ} (hi : i + 1 ≤ n) : ∃ a, Power s.actions (termAt s.actions n)
      (minusSigns i ++ [.numeral (Nat.toDigits 10 k) none]) a ∧
      (∀ I, a.value I = (-1) ^ i * k) ∧ (i = 0 → a = .num (.integer k)) := by
  obtain ⟨a, ha, hvalue, -, hsame⟩ := exists_termAt_minusSigns hs (termAt_numeral (s := s) hk) i
  exact ⟨a, power_of_term (termAt_mono hi _ _ ha), fun I => by simp [hvalue, Number.value], hsame⟩

theorem spells_signed {t : String} {ls : List Lexeme} (h : Spells t ls) (negative : Bool) :
    Spells (if negative then "-" ++ t else t)
      (if negative then .mark .minus '-' :: ls else ls) := by
  cases negative with
  | true => exact Spells.mark (by decide) (by decide) h.lexemes
  | false => exact h

/-- The text of a ratio is two numerals with a slash between them. -/
theorem spells_ratio (a b : ℕ) : Spells (decimalNat a ++ ("/" ++ decimalNat b))
    ([.numeral (Nat.toDigits 10 a) none] ++
      .mark .slash '/' :: [.numeral (Nat.toDigits 10 b) none]) := by
  have hslash : Spells ("/" ++ decimalNat b)
      (.mark .slash '/' :: [.numeral (Nat.toDigits 10 b) none]) :=
    Spells.mark (by decide) (by decide) (spells_decimalNat b).lexemes
  have hstands : Stands ("/" ++ decimalNat b).toList := by
    rw [String.toList_append]
    exact LexemeKind.IsMark.stands (k := .slash) (by decide) _
  exact (spells_decimalNat a).append (by simp) hslash.lexemes hstands

/-- A fraction is its numerator over its denominator, up to the sign. -/
theorem divInt_natAbs (q : ℚ) :
    (Rat.divInt q.num.natAbs q.den : ℚ) = if q.num < 0 then -q else q := by
  split_ifs with hneg
  · have habs : (q.num.natAbs : ℤ) = -q.num := by omega
    rw [habs, ← Rat.neg_divInt, Rat.num_divInt_den]
  · have habs : (q.num.natAbs : ℤ) = q.num := by omega
    rw [habs, Rat.num_divInt_den]

/-- The text of a number, apart from its sign: it is read as factors which are the number once the
sign is put back. -/
structure LiteralText (s : Scope) (n : Number) (ls : List Lexeme) (f : Factors) : Prop where
  spells : Spells n.text (if n.isNegative then .mark .minus '-' :: ls else ls)
  nonempty : ls ≠ []
  unsigned : Unsigned ls
  reads : s.join .multiply (if n.isNegative then negateFactors (f.list s) else f.list s) =
    .num n.plain
  integer : f.divisors = [] → (Expr.num n).isInteger = true
  /-- What is read, with minus signs on the first term. -/
  derives : ∀ n' i, i + 1 ≤ n' → ∃ g, Product s (termAt s.actions n') (minusSigns i ++ ls) g ∧
    (∀ I, g.value I = (-1) ^ i * f.value I) ∧ g.divisors = f.divisors ∧ (i = 0 → g = f)

theorem literalText_integer (hs : s.IsArithmetic) {m : ℤ}
    (hm : (Nat.toDigits 10 m.natAbs).length ≤ maxDecimalDigits) :
    LiteralText s (.integer m) [.numeral (Nat.toDigits 10 m.natAbs) none]
      (.single (.num (.integer m.natAbs))) where
  spells := by
    have htext : Number.text (.integer m) =
        if Number.isNegative (.integer m) then "-" ++ decimalNat m.natAbs
        else decimalNat m.natAbs := by
      by_cases hneg : m < 0 <;> simp [Number.text, decimalInt, Number.isNegative, hneg]
    rw [htext]
    exact spells_signed (spells_decimalNat m.natAbs) _
  nonempty := by simp
  unsigned := by simp [Unsigned]
  reads := by
    by_cases hneg : m < 0
    · simp [Number.isNegative, hneg, Factors.list, Factors.single, Scope.quotient, negateFactors,
        Number.negateExact?, Scope.join, Number.plain, -Nat.cast_natAbs]
      omega
    · simp [Number.isNegative, hneg, Factors.list, Factors.single, Scope.quotient, Scope.join,
        Number.plain, -Nat.cast_natAbs]
      omega
  integer _ := rfl
  derives n' i hi := by
    obtain ⟨a, ha, hvalue, h0⟩ := exists_power_numeral hs hm hi
    refine ⟨.single a, .first ha, fun I => ?_, rfl, fun h => by rw [h0 h]⟩
    simp [hvalue, Number.value]

theorem literalText_fraction (hs : s.IsArithmetic) {q : ℚ}
    (hnum : (Nat.toDigits 10 q.num.natAbs).length ≤ maxDecimalDigits)
    (hden : (Nat.toDigits 10 q.den).length ≤ maxDecimalDigits) :
    LiteralText s (.fraction q)
      ([.numeral (Nat.toDigits 10 q.num.natAbs) none] ++
        .mark .slash '/' :: [.numeral (Nat.toDigits 10 q.den) none])
      ((Factors.single (.num (.integer q.num.natAbs))).divide (.num (.integer q.den))) where
  spells := by
    have htext : Number.text (.fraction q) =
        if Number.isNegative (.fraction q) then
          "-" ++ (decimalNat q.num.natAbs ++ ("/" ++ decimalNat q.den))
        else decimalNat q.num.natAbs ++ ("/" ++ decimalNat q.den) := by
      by_cases hneg : q.num < 0 <;>
        simp [Number.text, decimalInt, Number.isNegative, hneg, String.append_assoc]
    rw [htext]
    exact spells_signed (spells_ratio _ _) _
  nonempty := by simp
  unsigned := by simp [Unsigned]
  reads := by
    -- the slash divides two literals, which the reader makes a fraction at once
    have hquotient := divInt_natAbs q
    by_cases hneg : q.num < 0
    · simp [Number.isNegative, hneg, Factors.list, Factors.single, Factors.divide, Scope.quotient,
        negateFactors, Number.negateExact?, Scope.join, Number.plain, hquotient, -Nat.cast_natAbs]
    · simp [Number.isNegative, hneg, Factors.list, Factors.single, Factors.divide, Scope.quotient,
        Scope.join, Number.plain, hquotient, -Nat.cast_natAbs]
  integer h := by simp [Factors.divide] at h
  derives n' i hi := by
    obtain ⟨a, ha, hvalue, h0⟩ := exists_power_numeral hs hnum hi
    obtain ⟨d, hd, -, hd0⟩ := exists_power_numeral hs hden (i := 0) (n := n') (by omega)
    -- the denominator of a fraction is not zero
    have hdivisor : Divisor s.actions (termAt s.actions n')
        [.numeral (Nat.toDigits 10 q.den) none] d := by
      refine ⟨hd, ?_⟩
      rw [hd0 rfl]
      simp [Scope.actions, isZero, Number.isZero, q.den_nz]
    refine ⟨(Factors.single a).divide d, ?_, fun I => ?_, by rw [hd0 rfl]; rfl,
      fun h => by rw [h0 h, hd0 rfl]⟩
    · have hall := (Product.first ha).divide hdivisor
      rw [List.append_assoc] at hall
      exact hall
    · simp [Factors.value_divide, hvalue, hd0 rfl, Number.value, mul_assoc]

/-- Every exact number that has a text can be read back. -/
theorem exists_literalText (hs : s.IsArithmetic) {n : Number} (hn : n.hasText = true)
    (hexact : n.toRat?.isSome = true) : ∃ ls f, LiteralText s n ls f := by
  cases n with
  | integer m => exact ⟨_, _, literalText_integer hs (length_toDigits_of_hasDecimal hn)⟩
  | fraction q =>
    simp only [Number.hasText, Bool.and_eq_true] at hn
    have hdown := length_toDigits_of_hasDecimal hn.2
    rw [Int.natAbs_natCast] at hdown
    exact ⟨_, _, literalText_fraction hs (length_toDigits_of_hasDecimal hn.1) hdown⟩
  | unit =>
    have hone := literalText_integer hs (m := 1) (by decide)
    exact ⟨_, _, hone.spells, hone.nonempty, hone.unsigned, hone.reads, fun _ => rfl, hone.derives⟩
  | double x => cases hexact

namespace LiteralText

variable {n : Number} {ls : List Lexeme} {f : Factors}

/-- The text of a literal has its value, up to the sign. -/
theorem value (hs : s.IsArithmetic) (h : LiteralText s n ls f) (I : Interpretation) :
    f.value I = if n.isNegative then -n.value else n.value := by
  have hvalue := congrArg (Expr.value I) h.reads
  have hplain : n.plain.value = n.value := congrArg (Option.getD · 0) n.toRat?_plain
  rw [hs.value_join I (.inr rfl), Interpretation.apply, value_num, hplain] at hvalue
  split_ifs at hvalue ⊢ with hneg
  · rw [prod_negateFactors, Factors.prod_list hs] at hvalue
    rw [← hvalue, neg_neg]
  · rw [← hvalue, Factors.prod_list hs]

/-- As a factor a literal is its numeral or ratio, with its sign in front. -/
theorem factorText (hs : s.IsArithmetic) (h : LiteralText s n ls f) :
    FactorText s 1 n.text (fun _ => n.reading) (.num n) ls 2 1 (if n.isNegative then 1 else 0) where
  grade := le_rfl
  gradeWithSigns := by split_ifs <;> omega
  spells := by
    have hspells := h.spells
    split_ifs at hspells ⊢
    · exact hspells
    · exact hspells
  nonempty := h.nonempty
  unsigned := h.unsigned
  signs _ := by
    unfold Number.reading
    split_ifs <;> rfl
  derives n' i hi _ := by
    obtain ⟨g, hg, hvalue, hdivisors, -⟩ := h.derives n' i hi
    refine ⟨g, hg, fun I => ?_, ⟨fun _ => rfl, fun _ hnil _ => h.integer (hdivisors ▸ hnil)⟩⟩
    rw [hvalue, h.value hs, Number.reading]
    split_ifs <;> rfl

/-- As a term it is the literal itself in its plain kind. -/
theorem termsText (h : LiteralText s n ls f) :
    TermsText s 1 n.text (fun _ => n.reading) (.num n)
      (if n.isNegative then .mark .minus '-' :: ls else ls) [.num n.plain] where
  spells := h.spells
  lexeme := by
    split_ifs
    · simp
    · exact h.nonempty
  notPlus c hc := by
    split_ifs at hc
    · simp at hc
    · exact (h.unsigned _ hc c).1 rfl
  nonempty := by simp
  derives := by
    obtain ⟨g, hg, -, -, hsame⟩ := h.derives 1 0 le_rfl
    rw [hsame rfl, minusSigns_zero, List.nil_append] at hg
    have hmul := hg.multiplication n.isNegative
    rw [h.reads] at hmul
    cases hneg : n.isNegative with
    | true =>
      rw [hneg] at hmul
      exact .single (.minus (.intro '-' hmul))
    | false =>
      rw [hneg] at hmul
      rw [if_neg (by simp), withSign_of_unsigned h.unsigned]
      exact .single (.plus (.intro '+' hmul))
  value I := by
    have hplain : n.plain.value = n.value := congrArg (Option.getD · 0) n.toRat?_plain
    rw [List.map_singleton, List.sum_singleton, value_num, hplain, Number.reading]
    split_ifs <;> simp [Reading.lead, Reading.plain]
  matched a ha := by
    cases ha
    rintro m hm
    cases hm
    exact ⟨n, rfl, rfl⟩

end LiteralText

end Reckoner
