import Reckoner.Proofs.Text.Form

/-!
# The text of a product

Factors are written one after the other, each after a star or, if it is a reciprocal, after a slash.
An integer before a slash and another one after it would be read as a ratio, and the product of the
two with nothing else would be a number, so the writer puts a star there unless a slash follows.
-/

namespace Reckoner

open Grammar

variable {s : Scope} {n : ℕ}

namespace Expr

@[simp] theorem node_piece (e : Expr) : e.piece.node = e := by
  cases e <;> rfl

/-! ## Divisors -/

/-- What is written after slashes in the text of factors after `before`. -/
def divisorsAfter (before : Expr) : List Expr → List Expr
  | [] => []
  | p :: ps =>
    match p.reciprocalBase? with
    | some base =>
      if readsAsRatio before base (ps.map piece) then divisorsAfter p ps
      else base :: divisorsAfter p ps
    | none => divisorsAfter p ps

/-- What is written after slashes in the text of a product. -/
def writtenDivisors : List Expr → List Expr
  | p :: q :: ps =>
    if p.same (.num .minusOne) && !q.isNumber then divisorsAfter q ps
    else divisorsAfter p (q :: ps)
  | _ => []

theorem mem_divisorsAfter_cons {before p d : Expr} {ps : List Expr} (h : d ∈ divisorsAfter p ps) :
    d ∈ divisorsAfter before (p :: ps) := by
  unfold divisorsAfter
  split
  · split
    · exact h
    · exact List.mem_cons_of_mem _ h
  · exact h

theorem exists_reciprocal_of_mem_divisorsAfter {before base : Expr} {ps : List Expr}
    (h : base ∈ divisorsAfter before ps) : ∃ p ∈ ps, p.reciprocalBase? = some base := by
  induction ps generalizing before with
  | nil => cases h
  | cons p ps ih =>
    have hlater : base ∈ divisorsAfter p ps → ∃ q ∈ p :: ps, q.reciprocalBase? = some base := by
      intro hmem
      obtain ⟨q, hq, hbase⟩ := ih hmem
      exact ⟨q, List.mem_cons_of_mem p hq, hbase⟩
    unfold divisorsAfter at h
    split at h
    · next base' hp =>
      split at h
      · exact hlater h
      · rcases List.mem_cons.1 h with rfl | hmem
        · exact ⟨p, List.mem_cons_self, hp⟩
        · exact hlater hmem
    · exact hlater h

/-- What is written after a slash is the base of a reciprocal among the factors. -/
theorem exists_reciprocal_of_mem_writtenDivisors {base : Expr} {ps : List Expr}
    (h : base ∈ writtenDivisors ps) : ∃ p ∈ ps, p.reciprocalBase? = some base := by
  match ps, h with
  | p :: q :: ps, h =>
    rw [writtenDivisors] at h
    split_ifs at h
    · obtain ⟨x, hx, hbase⟩ := exists_reciprocal_of_mem_divisorsAfter h
      exact ⟨x, by simp [hx], hbase⟩
    · obtain ⟨x, hx, hbase⟩ := exists_reciprocal_of_mem_divisorsAfter h
      exact ⟨x, List.mem_cons_of_mem p hx, hbase⟩

/-! ## Factors after the first -/

/-- The text of an operand of a product, and of its base as a divisor if it is a reciprocal. -/
structure WrittenFactor (s : Scope) (n : ℕ) (p : Expr) : Prop where
  /-- As a factor. -/
  factor : ∃ ls j m, FactorText s n (p.piece.operand Operator.multiply.precedence false)
    (fun I => operandReading Operator.multiply.precedence p (p.reading I)) p ls n j m
  /-- As a divisor. -/
  divisor : ∀ base, p.reciprocalBase? = some base → base.isZero = false → ∃ ls d,
    Spells (operandText Operator.multiply.precedence true base p.piece.firstText) ls ∧
    Divisor s.actions (termAt s.actions n) ls d ∧
    (∀ I, (d.value I)⁻¹ = (operandReading Operator.multiply.precedence p (p.reading I)).inner) ∧
    (d.isInteger = true → base.isInteger = true)

/-- The text of factors after `before`. -/
structure TailText (s : Scope) (n : ℕ) (before : Expr) (ps : List Expr) (ls : List Lexeme) :
    Prop where
  lexemes : lexemes (factorsText before .factor (ps.map piece)).toList = ls
  stands : Stands (factorsText before .factor (ps.map piece)).toList
  derives : ∀ n' ls' f, n ≤ n' → Product s (termAt s.actions n') ls' f →
    ∃ f', Product s (termAt s.actions n') (ls' ++ ls) f' ∧
      (∀ I, f'.value I = f.value I * factorsReading (ps.map fun p => (p, p.reading I))) ∧
      (ps = [] → f' = f) ∧
      (ps ≠ [] → (f.closed = [] → f.divisors = [] → f.numerator.isInteger = true →
        before.isInteger = true) → ¬f'.IsNumber)

/-- One more factor goes before the tail. With its mark it extends every product that is read up to
there, and it multiplies the value. -/
theorem TailText.cons {before p : Expr} {ps : List Expr} {m u : String} {k : LexemeKind} {c : Char}
    {ls₁ ls₂ : List Lexeme} (hm : m.toList = [c]) (hk : k.IsMark c)
    (htext : factorsText before .factor ((p :: ps).map piece) =
      m ++ u ++ factorsText p .factor (ps.map piece))
    (hu : Reckoner.lexemes u.toList = ls₁)
    (hstep : ∀ n' ls' f, n ≤ n' → Product s (termAt s.actions n') ls' f →
      ∃ g, Product s (termAt s.actions n') (ls' ++ .mark k c :: ls₁) g ∧
        (∀ I, g.value I = f.value I *
          (operandReading Operator.multiply.precedence p (p.reading I)).inner) ∧
        (g.closed = [] → g.divisors ≠ []) ∧
        (ps = [] → (f.closed = [] → f.divisors = [] → f.numerator.isInteger = true →
          before.isInteger = true) → ¬g.IsNumber))
    (htail : TailText s n p ps ls₂) : TailText s n before (p :: ps) (.mark k c :: ls₁ ++ ls₂) where
  lexemes := by
    rw [htext, String.toList_append, lexemes_append htail.stands, htail.lexemes,
      (Spells.mark hm hk hu).lexemes]
  stands := by
    have hlist : (m ++ u ++ factorsText p .factor (ps.map piece)).toList =
        c :: (u ++ factorsText p .factor (ps.map piece)).toList := by simp [hm]
    rw [htext, hlist]
    exact hk.stands _
  derives n' ls' f hn hf := by
    obtain ⟨g, hg, hvalue, hcompound, hlast⟩ := hstep n' ls' f hn hf
    obtain ⟨f', hf', hvalue', hnil, hnumber⟩ := htail.derives n' _ g hn hg
    refine ⟨f', by simpa using hf', fun I => ?_, by simp, fun _ hbefore => ?_⟩
    · rw [hvalue', hvalue]
      simp [factorsReading, mul_assoc]
    · by_cases hps : ps = []
      · rw [hnil hps]
        exact hlast hps hbefore
      · exact hnumber hps fun hclosed hdivisors => absurd hdivisors (hcompound hclosed)

/-- Factors that can be written by themselves can be written after another one, as long as no zero
comes after a slash. -/
theorem exists_tailText (ps : List Expr) (hps : ∀ p ∈ ps, p.WrittenFactor s n) (before : Expr)
    (hzero : ∀ d ∈ divisorsAfter before ps, d.isZero = false) (hs : s.IsArithmetic) :
    ∃ ls, TailText s n before ps ls := by
  induction ps generalizing before with
  | nil =>
    refine ⟨[], by simp [factorsText], by simp [factorsText], fun n' ls' f _ hf => ?_⟩
    exact ⟨f, by simpa using hf, by simp [factorsReading], fun _ => rfl, fun h => absurd rfl h⟩
  | cons p ps ih =>
    obtain ⟨ls₂, htail⟩ := ih (fun q hq => hps q (by simp [hq])) p fun d hd =>
      hzero d (mem_divisorsAfter_cons hd)
    obtain ⟨hfactor, hdivisor⟩ := hps p (by simp)
    by_cases hover : ∃ base, p.reciprocalBase? = some base ∧
        readsAsRatio before base (ps.map piece) = false
    · -- the factor is a reciprocal and follows a slash
      obtain ⟨base, hbase, hratio⟩ := hover
      obtain ⟨lsd, d, hspells, hd, hvalue, hint⟩ :=
        hdivisor base hbase (hzero base (by simp [divisorsAfter, hbase, hratio]))
      refine ⟨_, TailText.cons (m := "/") (k := .slash) (c := '/') (by decide) (by decide) ?_
        hspells.lexemes (fun n' ls' f hn hf => ?_) htail⟩
      · simp [factorsText, hbase, hratio, Lead.after]
      · refine ⟨f.divide d, hf.divide (hd.mono (termAt_mono hn)), fun I => ?_,
          by simp [Factors.divide], fun hnil hbefore => ?_⟩
        · rw [Factors.value_divide, hvalue]
        · rintro ⟨hclosed, ⟨hdiv, -⟩ | ⟨hnum, d', hdiv, hd'⟩⟩
          · simp [Factors.divide] at hdiv
          · have hsingle : f.divisors = [] ∧ d = d' := by
              simpa [Factors.divide, List.append_eq_singleton_iff] using hdiv
            have hb := hbefore hclosed hsingle.1 hnum
            have hbase' := hint (hsingle.2 ▸ hd')
            simp [readsAsRatio, hb, hbase', hnil] at hratio
    · -- the factor follows a star
      obtain ⟨lsp, j, m, htext⟩ := hfactor
      have hsigned := htext.gradeWithSigns
      refine ⟨_, TailText.cons (m := "*") (k := .star) (c := '*') (by decide) (by decide) ?_
        htext.spells.lexemes (fun n' ls' f hn hf => ?_) htail⟩
      · cases hbase : p.reciprocalBase? with
        | none => simp [factorsText, hbase, Lead.after]
        | some base =>
          have hratio : readsAsRatio before base (ps.map piece) = true := by
            by_contra h
            exact hover ⟨base, hbase, by simpa using h⟩
          simp [factorsText, hbase, hratio, Lead.after]
      · obtain ⟨g, hg, hvalue, -⟩ := htext.derives n' m (by omega) hn
        refine ⟨f.times s g, hf.append hg, fun I => ?_, by simp [Factors.times, Factors.list],
          fun _ _ hcond => ?_⟩
        · rw [Factors.value_times hs, hvalue, Reading.inner, htext.signs I]
        · obtain ⟨hclosed, -⟩ := hcond
          simp [Factors.times, Factors.list] at hclosed

end Expr

open Reckoner.Expr

/-! ## Products -/

/-- A factor with the factors after it reads as the product of all of them. -/
theorem FactorText.tail {t : String} {r : Interpretation → Reading} {p e : Expr} {ps : List Expr}
    {ls ls₂ : List Lexeme} {c j m : ℕ} (h : FactorText s n t r p ls c j m)
    (htail : TailText s n p ps ls₂) (hp : ps = [] → p.isNumber = false) :
    FactorText s n (t ++ factorsText p .factor (ps.map piece))
      (fun I => (r I).times (factorsReading (ps.map fun p => (p, p.reading I)))) e (ls ++ ls₂)
      c j m where
  grade := h.grade
  gradeWithSigns := h.gradeWithSigns
  spells := by
    rw [← List.append_assoc]
    exact h.spells.append h.lexemes_ne_nil htail.lexemes htail.stands
  nonempty := by simp [h.nonempty]
  unsigned l hl := by
    obtain ⟨l', ls', rfl⟩ := List.exists_cons_of_ne_nil h.nonempty
    exact h.unsigned l hl
  signs := h.signs
  derives n' i hi hn := by
    obtain ⟨f, hf, hvalue, hreads⟩ := h.derives n' i hi hn
    obtain ⟨f', hf', hvalue', hnil, hnumber⟩ := htail.derives n' _ f hn hf
    -- several factors are never read as a number, and a single one is none by hypothesis
    have hfalse : ¬f'.IsNumber := by
      by_cases hps : ps = []
      · intro hnum
        rw [hnil hps] at hnum
        have hpnum := hreads.number hnum
        rw [hp hps] at hpnum
        cases hpnum
      · exact hnumber hps hreads.integer
    refine ⟨f', by simpa using hf', fun I => by rw [hvalue', hvalue]; rfl, ?_⟩
    refine ⟨fun hnum => absurd hnum hfalse, fun hclosed hdivisors hint => ?_⟩
    exact absurd ⟨hclosed, .inl ⟨hdivisors, isNumber_of_isInteger hint⟩⟩ hfalse

namespace Expr

theorem text_product (p q : Expr) (ps : List Expr) :
    (Expr.app .multiply (p :: q :: ps)).text = productText ((p :: q :: ps).map piece) := by
  simp [text, piece, pieces_eq_map, Operator.text, Operator.mark, Operator.infixText]

theorem firstFactorText_num {n : Number} {q : Expr} {ps : List Expr}
    (hminus : ((Expr.num n).same (.num .minusOne) && !q.isNumber) ≠ true)
    (hexact : ∀ x, n ≠ .double x) :
    firstFactorText (Expr.num n).piece ((q :: ps).map piece) = (Expr.num n).text := by
  have hminus' : ((Expr.num n).same (.num .minusOne) && !((((q :: ps).map piece).head?).any
      (·.node.isNumber))) ≠ true := by simpa using hminus
  unfold firstFactorText
  rw [if_neg (by simpa using hminus')]
  cases n with
  | double x => exact absurd rfl (hexact x)
  | integer m =>
    by_cases hm : m < 0
    · simp [piece, text, Number.isNegative, hm]
    · simp [piece, text, Number.isNegative, hm, Piece.operand, operandText, precedence,
        atomPrecedence, Operator.precedence]
  | fraction m =>
    by_cases hm : m.num < 0
    · simp [piece, text, Number.isNegative, hm]
    · simp [piece, text, Number.isNegative, hm, Piece.operand, operandText, precedence,
        Operator.precedence]
  | unit => rfl

/-- At the front of a product everything but a number stands as it does anywhere else in one. -/
theorem firstFactorText_of_isNumber_eq_false {p q : Expr} {ps : List Expr}
    (hp : p.isNumber = false) :
    firstFactorText p.piece ((q :: ps).map piece) =
      p.piece.operand Operator.multiply.precedence false := by
  unfold firstFactorText
  cases p with
  | num n => cases hp
  | sym name role => simp [same]
  | app op qs => simp [same]

/-- A product of at least two factors can be written, and its text reads as the product, if its
factors can be written and no zero comes after a slash. -/
theorem exists_factorText_product (hs : s.IsArithmetic) {p q : Expr} {ps : List Expr}
    (hfirst : p.isNumber = true → ∃ ls j m,
      FactorText s n p.text (fun I => p.reading I) p ls n j m)
    (hexact : ∀ x, p ≠ .num (.double x)) (hps : ∀ x ∈ p :: q :: ps, x.WrittenFactor s n)
    (hzero : ∀ d ∈ writtenDivisors (p :: q :: ps), d.isZero = false) :
    ∃ ls j m, FactorText s n (Expr.app .multiply (p :: q :: ps)).text
      (fun I => (Expr.app .multiply (p :: q :: ps)).reading I)
      (Expr.app .multiply (p :: q :: ps)) ls (n + 1) j m := by
  rw [text_product]
  by_cases hminus : (p.same (.num .minusOne) && !q.isNumber) = true
  · -- a minus sign before the second factor
    obtain ⟨ls, j, m, hq⟩ := (hps q (by simp)).factor
    obtain ⟨ls₂, htail⟩ := exists_tailText ps (fun x hx => hps x (by simp [hx])) q
      (fun d hd => hzero d (by rw [writtenDivisors, if_pos hminus]; exact hd)) hs
    have hnumber : q.isNumber = false := by simpa using (Bool.and_eq_true_iff.1 hminus).2
    have hlead : Lead.after .nothing "-" = .minus := by simp [Lead.after]
    have htext : productText ((p :: q :: ps).map piece) = "-" ++
        (q.piece.operand Operator.multiply.precedence false ++
          factorsText q .factor (ps.map piece)) := by
      simp [productText, firstFactorText, factorsText, (Bool.and_eq_true_iff.1 hminus).1, hnumber,
        hlead, hq.lead]
    have hreading : ∀ I, (Expr.app .multiply (p :: q :: ps)).reading I =
        ((operandReading Operator.multiply.precedence q (q.reading I)).times
          (factorsReading (ps.map fun p => (p, p.reading I)))).negative := fun I => by
      simp [reading, readings_eq_map, applicationReading, productReading, hminus]
    simp only [htext, hreading]
    exact ⟨_, _, _, (hq.tail htail fun _ => hnumber).negative⟩
  · obtain ⟨ls₂, htail⟩ := exists_tailText (q :: ps) (fun x hx => hps x (by simp [hx])) p
      (fun d hd => hzero d (by rw [writtenDivisors, if_neg hminus]; exact hd)) hs
    -- a number stands as it is, anything else as an operand
    obtain ⟨ls, j, m, u, r, hp, htext, hreading⟩ : ∃ ls j m u r, FactorText s n u r p ls n j m ∧
        firstFactorText p.piece ((q :: ps).map piece) = u ∧
        ∀ I, (Expr.app .multiply (p :: q :: ps)).reading I =
          (r I).times (factorsReading ((q :: ps).map fun p => (p, p.reading I))) := by
      by_cases hnumber : p.isNumber = true
      · obtain ⟨ls, j, m, hp⟩ := hfirst hnumber
        refine ⟨ls, j, m, _, _, hp, ?_, fun I => ?_⟩
        · cases p with
          | num n => exact firstFactorText_num hminus fun x hx => hexact x (hx ▸ rfl)
          | sym name role => cases hnumber
          | app op qs => cases hnumber
        · simp [reading, readings_eq_map, applicationReading, productReading, hminus, hnumber]
      · obtain ⟨ls, j, m, hp⟩ := (hps p (by simp)).factor
        refine ⟨ls, j, m, _, _, hp, ?_, fun I => ?_⟩
        · exact firstFactorText_of_isNumber_eq_false (by simpa using hnumber)
        · simp [reading, readings_eq_map, applicationReading, productReading, hminus, hnumber]
    have hproduct : productText ((p :: q :: ps).map piece) =
        u ++ factorsText p .factor ((q :: ps).map piece) := by
      rw [← htext, List.map_cons, productText, htext, hp.lead.1, node_piece]
    simp only [hproduct, hreading]
    exact ⟨_, _, _, (hp.tail htail (by simp)).mono le_rfl (Nat.le_succ n)⟩

end Expr

end Reckoner
