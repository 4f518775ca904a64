import Reckoner.Proofs.Grammar.Lexing
import Reckoner.Proofs.Text.Product
import Reckoner.Proofs.Text.Reading

/-!
# Forms of printed texts

How a printed text derives from the grammar, by how tightly it binds: as the base of a power, as
factors, as terms. A form holds for a grade of terms and from there on, and for any number of minus
signs put on the first term, because a larger text may put them there.

A text must not read as a number if it is not the text of one, since a product with a number or the
division of two numbers would be read as something else. The forms keep track of that.
-/

namespace Reckoner

open Grammar Reckoner.Expr

/-! ## What is read as a number -/

/-- If a number is read, then it is the number that was written. -/
def Expr.Matches (a e : Expr) : Prop := ∀ m, a = .num m → ∃ n, e = .num n ∧ n.plain = m

namespace Expr.Matches

variable {a e : Expr}

theorem isNumber (h : a.Matches e) (ha : a.isNumber = true) : e.isNumber = true := by
  cases a with
  | num m =>
    obtain ⟨n, rfl, -⟩ := h m rfl
    rfl
  | sym name role => cases ha
  | app op ps => cases ha

theorem isInteger (h : a.Matches e) (ha : a.isInteger = true) : e.isInteger = true := by
  cases a with
  | num m =>
    obtain ⟨n, rfl, rfl⟩ := h m rfl
    cases n with
    | integer n => rfl
    | unit => rfl
    | fraction q => exact ha
    | double x => exact ha
  | sym name role => cases ha
  | app op ps => cases ha

theorem isZero (h : a.Matches e) (ha : a.isZero = true) : e.isZero = true := by
  cases a with
  | num m =>
    obtain ⟨n, rfl, rfl⟩ := h m rfl
    cases n with
    | unit => cases ha
    | _ => exact ha
  | sym name role => cases ha
  | app op ps => cases ha

end Expr.Matches

theorem Expr.isNumber_of_isInteger {e : Expr} (h : e.isInteger = true) : e.isNumber = true := by
  cases e with
  | num n => rfl
  | sym name role => cases h
  | app op ps => cases h

theorem Expr.matches_of_isNumber_eq_false {a e : Expr} (h : a.isNumber = false) : a.Matches e := by
  rintro m rfl
  cases h

namespace Factors

variable {s : Scope} {f : Factors} {e : Expr}

/-- The factors are read as a number: it is a single one, or the ratio of two integers. -/
def IsNumber (f : Factors) : Prop :=
  f.closed = [] ∧ ((f.divisors = [] ∧ f.numerator.isNumber = true) ∨
    f.numerator.isInteger = true ∧ ∃ d, f.divisors = [d] ∧ d.isInteger = true)

/-- The factors are read as a number, or a single one as an integer, only for an expression that is
one. -/
structure Reads (f : Factors) (e : Expr) : Prop where
  number : f.IsNumber → e.isNumber = true
  integer : f.closed = [] → f.divisors = [] → f.numerator.isInteger = true → e.isInteger = true

/-- A single factor is read as what it matches. -/
theorem reads_single {a : Expr} (h : a.Matches e) : (single a).Reads e where
  number := by
    rintro ⟨-, ⟨-, ha⟩ | ⟨ha, -⟩⟩
    · exact h.isNumber ha
    · exact h.isNumber (Expr.isNumber_of_isInteger ha)
  integer _ _ ha := h.isInteger ha

/-- A quotient is a number only if nothing is divided or both are integers. -/
theorem isNumber_quotient {ds : List Expr} (h : (s.quotient e ds).isNumber = true) :
    (ds = [] ∧ e.isNumber = true) ∨
      e.isInteger = true ∧ ∃ d, ds = [d] ∧ d.isInteger = true := by
  unfold Scope.quotient at h
  split at h
  · exact .inl ⟨rfl, h⟩
  · exact .inr ⟨rfl, _, rfl, rfl⟩
  · cases h

/-- A product is read as a number only if its factors are. -/
theorem isNumber_of_join {negative : Bool}
    (h : (s.join .multiply (if negative then negateFactors (f.list s) else f.list s)).isNumber =
      true) : f.IsNumber := by
  -- a product that is a number has a single factor, also where a sign was put on it
  have hsingle : ∃ a, f.list s = [a] ∧ a.isNumber = true := by
    cases negative with
    | false =>
      unfold Scope.join at h
      split at h
      · next a heq => exact ⟨a, heq, h⟩
      · cases h
    | true =>
      unfold Scope.join at h
      split at h
      · next a heq =>
        simp only [if_true] at heq
        unfold negateFactors at heq
        split at heq
        · next n es hlist =>
          split at heq
          · cases heq
            exact ⟨_, hlist, rfl⟩
          · cases heq
        · simp [list] at heq
      · cases h
  obtain ⟨a, hlist, ha⟩ := hsingle
  rw [list] at hlist
  obtain ⟨hclosed, hlast⟩ : f.closed = [] ∧ s.quotient f.numerator f.divisors = a := by
    cases hc : f.closed with
    | nil =>
      rw [hc] at hlist
      exact ⟨rfl, by simpa using hlist⟩
    | cons x xs =>
      rw [hc] at hlist
      simp at hlist
  rw [← hlast] at ha
  exact ⟨hclosed, isNumber_quotient ha⟩

end Factors

/-! ## Forms -/

section Forms

variable (s : Scope) (n : ℕ) (t : String) (r : Interpretation → Reading) (e : Expr)
  (ls : List Lexeme)

/-- The text is a base and exponents; its first term is of grade `j`. -/
structure PowerText (j : ℕ) : Prop where
  grade : j ≤ n
  spells : Spells t ls
  nonempty : ls ≠ []
  unsigned : Unsigned ls
  signs : ∀ I, (r I).signs = 0
  /-- What is read, with minus signs on the first term. -/
  derives : ∀ n' i, i + j ≤ n' → n ≤ n' → ∃ a,
    Power s.actions (termAt s.actions n') (minusSigns i ++ ls) a ∧
    (∀ I, a.value I = (r I).body ((-1) ^ i)) ∧ a.Matches e

/-- The text is `m` minus signs and factors. Its first term is of grade `j`, and of grade `c` at
most with the signs. -/
structure FactorText (c j m : ℕ) : Prop where
  grade : j ≤ n
  gradeWithSigns : j + m ≤ c
  spells : Spells t (minusSigns m ++ ls)
  nonempty : ls ≠ []
  unsigned : Unsigned ls
  signs : ∀ I, (r I).signs = m
  /-- What is read, with minus signs on the first term. -/
  derives : ∀ n' i, i + j ≤ n' → n ≤ n' → ∃ f,
    Product s (termAt s.actions n') (minusSigns i ++ ls) f ∧
    (∀ I, f.value I = (r I).body ((-1) ^ i)) ∧ f.Reads e

/-- Lexemes of terms with the sign that the first one has or may have. -/
def withSign : List Lexeme → List Lexeme
  | .mark .minus c :: ls => .mark .minus c :: ls
  | ls => .mark .plus '+' :: ls

/-- The text is a sum of terms. -/
structure TermsText (es : List Expr) : Prop where
  spells : Spells t ls
  lexeme : ls ≠ []
  notPlus : ∀ c, ls.head? ≠ some (.mark .plus c)
  nonempty : es ≠ []
  /-- What is read. -/
  derives : Many (Signed s.actions (termAt s.actions n)) (withSign ls) es
  value : ∀ I, (es.map (Expr.value I)).sum = (r I).lead
  /-- A single term. -/
  matched : ∀ a, es = [a] → a.Matches e

end Forms

variable {s : Scope} {n : ℕ} {t : String} {r : Interpretation → Reading} {e : Expr}
  {ls : List Lexeme}

/-! ## From one form to another -/

/-- A power is a factor without signs. -/
theorem PowerText.factorText {j : ℕ} (h : PowerText s n t r e ls j) :
    FactorText s n t r e ls n j 0 where
  grade := h.grade
  gradeWithSigns := h.grade
  spells := h.spells
  nonempty := h.nonempty
  unsigned := h.unsigned
  signs := h.signs
  derives n' i hi hn := by
    obtain ⟨a, ha, hvalue, hmatch⟩ := h.derives n' i hi hn
    exact ⟨.single a, .first ha, fun I => by rw [Factors.value_single, hvalue],
      Factors.reads_single hmatch⟩

theorem PowerText.mono {j n' : ℕ} (h : PowerText s n t r e ls j) (hn : n ≤ n') :
    PowerText s n' t r e ls j :=
  { h with grade := h.grade.trans hn, derives := fun m i hi hm => h.derives m i hi (hn.trans hm) }

theorem FactorText.mono {c c' j m n' : ℕ} (h : FactorText s n t r e ls c j m) (hn : n ≤ n')
    (hc : c ≤ c') : FactorText s n' t r e ls c' j m :=
  { h with
    grade := h.grade.trans hn
    gradeWithSigns := h.gradeWithSigns.trans hc
    derives := fun m i hi hm => h.derives m i hi (hn.trans hm) }

theorem FactorText.lexemes_ne_nil {c j m : ℕ} (h : FactorText s n t r e ls c j m) :
    minusSigns m ++ ls ≠ [] := fun hnil => h.nonempty (List.append_eq_nil_iff.1 hnil).2

/-- The text of a factor is neither empty nor a minus sign alone, so what follows it follows a
factor. -/
theorem FactorText.lead {c j m : ℕ} (h : FactorText s n t r e ls c j m) :
    Lead.after .nothing t = .factor ∧ Lead.after .minus t = .factor := by
  have hempty : t ≠ "" := h.spells.ne_empty h.lexemes_ne_nil
  have hminus : t ≠ "-" := by
    rintro rfl
    have hsign : Spells ("-" ++ "") [.mark .minus '-'] :=
      Spells.mark (by decide) (by decide) lexemes_nil
    have hls : minusSigns m ++ ls = [.mark .minus '-'] := h.spells.lexemes.symm.trans hsign.lexemes
    cases m with
    | zero =>
      rw [minusSigns_zero, List.nil_append] at hls
      exact (h.unsigned _ (by rw [hls]; rfl) '-').2 rfl
    | succ m =>
      rw [minusSigns_succ, List.cons_append, List.cons.injEq] at hls
      exact h.nonempty (List.append_eq_nil_iff.1 hls.2).2
  simp [Lead.after, hempty, hminus]

/-- Factors that are no number are read as a product with their value, or its negative. -/
theorem exists_multiplication (hs : s.IsArithmetic) {T : Phrase Expr} {f : Factors}
    (negative : Bool) (h : Product s T ls f) (hf : f.Reads e) (he : e.isNumber = false) :
    ∃ a, Multiplication s.actions T negative ls a ∧
      (∀ I, a.value I = if negative then -f.value I else f.value I) ∧ a.isNumber = false := by
  refine ⟨_, h.multiplication negative, fun I => ?_, ?_⟩
  · rw [hs.value_join I (.inr rfl)]
    cases negative with
    | false => exact Factors.prod_list hs
    | true =>
      simp only [if_true]
      exact (prod_negateFactors I _).trans (congrArg Neg.neg (Factors.prod_list hs))
  · by_contra hnum
    rw [Bool.not_eq_false] at hnum
    have hnumber := hf.number (Factors.isNumber_of_join hnum)
    rw [he] at hnumber
    cases hnumber

theorem withSign_of_unsigned (h : Unsigned ls) : withSign ls = .mark .plus '+' :: ls := by
  unfold withSign
  split
  · next c ls' => exact absurd rfl (h _ rfl c).2
  · rfl

/-- Factors are a single term of an expression, with the signs in front of them. -/
theorem FactorText.termsText (hs : s.IsArithmetic) {j m : ℕ}
    (h : FactorText s n t r e ls (n + 1) j m) (he : e.isNumber = false) :
    ∃ es, TermsText s n t r e (minusSigns m ++ ls) es := by
  have hgrade := h.grade
  have hsigned := h.gradeWithSigns
  have hspells := h.spells
  cases m with
  | zero =>
    obtain ⟨f, hf, hvalue, hreads⟩ := h.derives n 0 (by omega) le_rfl
    obtain ⟨a, ha, havalue, hanum⟩ := exists_multiplication hs false hf hreads he
    refine ⟨[a], hspells, h.lexemes_ne_nil, fun c hc => ?_, by simp, ?_, fun I => ?_,
      fun b hb => ?_⟩
    · exact (h.unsigned _ hc c).1 rfl
    · rw [minusSigns_zero, List.nil_append, withSign_of_unsigned h.unsigned]
      exact .single (.plus (.intro '+' ha))
    · have hlead : (r I).lead = (r I).body 1 := by simp [Reading.lead, h.signs I]
      simp [havalue, hvalue, hlead]
    · cases hb
      exact Expr.matches_of_isNumber_eq_false hanum
  | succ m =>
    obtain ⟨f, hf, hvalue, hreads⟩ := h.derives n m (by omega) le_rfl
    obtain ⟨a, ha, havalue, hanum⟩ := exists_multiplication hs true hf hreads he
    refine ⟨[a], hspells, h.lexemes_ne_nil, fun c hc => ?_, by simp, ?_, fun I => ?_,
      fun b hb => ?_⟩
    · simp [minusSigns_succ] at hc
    · exact .single (.minus (.intro '-' ha))
    · have hlead : (r I).lead = -(r I).body ((-1) ^ m) := by simp [Reading.lead, h.signs I]
      simp [havalue, hvalue, hlead]
    · cases hb
      exact Expr.matches_of_isNumber_eq_false hanum

theorem TermsText.join {es : List Expr} (h : TermsText s n t r e ls es) :
    Expression s.actions (termAt s.actions n) ls (s.join .add es) := by
  obtain ⟨-, -, hplus, hne, hderives, -, -⟩ := h
  obtain ⟨a, as, rfl⟩ := List.exists_cons_of_ne_nil hne
  obtain ⟨ls₁, ls₂, hls, first, rest⟩ := hderives.exists_cons
  unfold withSign at hls
  split at hls
  · rw [hls]
    exact .intro (.signed first) rest
  · next hminus =>
    -- the sign that is not written is a plus sign
    cases first with
    | minus h =>
      cases h
      simp at hls
    | plus h =>
      obtain ⟨c, h⟩ := h
      simp only [List.cons_append, List.cons.injEq] at hls
      rw [hls.2]
      refine .intro (.unsigned h ?_) rest
      intro l hl c'
      have hhead : ls.head? = some l := by
        rw [hls.2, List.head?_append, hl]
        rfl
      refine ⟨?_, ?_⟩
      · rintro rfl
        exact hplus c' hhead
      · rintro rfl
        obtain ⟨ls', rfl⟩ := List.head?_eq_some_iff.1 hhead
        exact hminus c' ls' rfl

/-- As an expression the terms have the value of the text. -/
theorem TermsText.expression (hs : s.IsArithmetic) {es : List Expr}
    (h : TermsText s n t r e ls es) : ∃ a, Expression s.actions (termAt s.actions n) ls a ∧
      (∀ I, a.value I = (r I).lead) ∧ a.Matches e := by
  have hjoin : ∀ I, (s.join .add es).value I = (r I).lead := fun I =>
    (hs.value_join I (.inl rfl) es).trans (h.value I)
  have hmatch : (s.join .add es).Matches e := by
    have hmatched := h.matched
    unfold Scope.join
    split
    · exact hmatched _ rfl
    · exact Expr.matches_of_isNumber_eq_false rfl
  exact ⟨s.join .add es, h.join, hjoin, hmatch⟩

/-- A term without a sign is the base of a power. -/
theorem powerText_of_termAt (hs : s.IsArithmetic) {j : ℕ} (hj : j ≤ n) {a : Expr}
    {v : Interpretation → ℚ} (h : termAt s.actions j ls a) (hspells : Spells t ls)
    (hne : ls ≠ []) (hunsigned : Unsigned ls) (hvalue : ∀ I, a.value I = v I)
    (hmatch : a.Matches e) :
    PowerText s n t (fun I => .plain (v I)) e ls j where
  grade := hj
  spells := hspells
  nonempty := hne
  unsigned := hunsigned
  signs _ := rfl
  derives n' i hi _ := by
    obtain ⟨a', ha', havalue, hzero, hsame⟩ := exists_termAt_minusSigns hs h i
    refine ⟨a', power_of_term (termAt_mono hi _ _ ha'), fun I => by rw [havalue, hvalue]; rfl, ?_⟩
    rintro m rfl
    rw [← hsame (hzero rfl)] at hmatch
    exact hmatch m rfl

/-- Parentheses make a base of a power out of terms. -/
theorem TermsText.group (hs : s.IsArithmetic) {es : List Expr} (h : TermsText s n t r e ls es) :
    PowerText s (n + 1) ("(" ++ t ++ ")") (fun I => .plain (r I).lead) e
      (.mark .opening '(' :: ls ++ [.mark .closing ')']) (n + 1) := by
  obtain ⟨a, ha, hvalue, hmatch⟩ := h.expression hs
  refine powerText_of_termAt hs le_rfl (Term.group '(' ')' ha) h.spells.group (by simp) ?_ hvalue
    hmatch
  simp [Unsigned]

/-- A minus sign in front is one more sign on the first term. -/
theorem FactorText.negative {j m : ℕ} (h : FactorText s n t r e ls n j m) :
    FactorText s n ("-" ++ t) (fun I => (r I).negative) e ls (n + 1) j (m + 1) where
  grade := h.grade
  gradeWithSigns := Nat.succ_le_succ h.gradeWithSigns
  spells := Spells.mark (by decide) (by decide) h.spells.lexemes
  nonempty := h.nonempty
  unsigned := h.unsigned
  signs I := congrArg Nat.succ (h.signs I)
  derives := h.derives

end Reckoner
