import Reckoner.Proofs.Text.Factor
import Reckoner.Proofs.Text.Literal

/-!
# The text of an expression

By induction on the expression, its text has the form that its operator asks for and is read with
the value of its reading. What one application needs of its parameters is `Expr.Written`: their text
as terms, as factors, as a base and as a divisor.
-/

namespace Reckoner

open Grammar Reckoner.Expr

variable {s : Scope} {n : ℕ}

/-! ## Grades -/

theorem TermsText.mono {n' : ℕ} {t : String} {r : Interpretation → Reading} {e : Expr}
    {ls : List Lexeme} {es : List Expr} (h : TermsText s n t r e ls es) (hn : n ≤ n') :
    TermsText s n' t r e ls es :=
  { h with derives := h.derives.mono (Signed.mono (termAt_mono hn)) }

/-- What has the form of a power is derived as one, with the value of its reading. -/
theorem PowerText.exists_power {t : String} {r : Interpretation → Reading} {e : Expr}
    {ls : List Lexeme} {j : ℕ} (h : PowerText s n t r e ls j) :
    ∃ a, Power s.actions (termAt s.actions n) ls a ∧ (∀ I, a.value I = (r I).lead) ∧
      a.Matches e := by
  obtain ⟨a, ha, hvalue, hmatch⟩ := h.derives n 0 (by have := h.grade; omega) le_rfl
  refine ⟨a, ha, fun I => ?_, hmatch⟩
  rw [hvalue, Reading.lead, h.signs I]
  rfl

/-! ## Names of operators -/

/-- The operator is an arithmetic one or a definition. -/
def Operator.IsBuiltIn (op : Operator) : Prop := op.IsArithmetic ∨ ∃ id, op = .define id

theorem Operator.IsBuiltIn.isName_name {op : Operator} (h : op.IsBuiltIn) :
    IsName op.name.toList := by
  rcases h with (rfl | rfl | rfl) | ⟨id, rfl⟩
  · exact ⟨⟨'A', by decide, rfl⟩, List.all_eq_true.1 rfl⟩
  · exact ⟨⟨'M', by decide, rfl⟩, List.all_eq_true.1 rfl⟩
  · exact ⟨⟨'P', by decide, rfl⟩, List.all_eq_true.1 rfl⟩
  · show IsName "DEFINE".toList
    exact ⟨⟨'D', by decide, rfl⟩, List.all_eq_true.1 rfl⟩

theorem Operator.IsBuiltIn.allUpper_name {op : Operator} (h : op.IsBuiltIn) :
    Text.allUpper op.name = true := by
  rcases h with (rfl | rfl | rfl) | ⟨id, rfl⟩
  · rfl
  · rfl
  · rfl
  · show Text.allUpper "DEFINE" = true
    rfl

namespace Expr

/-! ## Parameters -/

/-- Two terms or more. -/
def isSum : Expr → Bool
  | .app .add (_ :: _ :: _) => true
  | _ => false

/-- The text of an expression whose terms are of grade `n`. -/
structure Written (s : Scope) (n : ℕ) (e : Expr) : Prop where
  /-- As terms. -/
  terms : ∃ ls es, TermsText s n e.text (fun I => e.reading I) e ls es
  /-- As factors. -/
  factors : e.isSum = false → ∃ ls j m, FactorText s n e.text (fun I => e.reading I) e ls (n + 1) j m
  /-- As a base. -/
  power : Operator.power.precedence ≤ e.precedence →
    ∃ ls j, PowerText s n e.text (fun I => e.reading I) e ls j
  /-- As a single term. -/
  atom : Operator.power.precedence < e.precedence → ∃ ls a, Spells e.text ls ∧
    termAt s.actions n ls a ∧ ∀ I, a.value I = (e.reading I).lead
  /-- As a divisor, if it is a reciprocal. -/
  divisor : ∀ base, e.reciprocalBase? = some base → base.isZero = false → ∃ ls d,
    Spells (operandText Operator.multiply.precedence true base e.piece.firstText) ls ∧
    Divisor s.actions (termAt s.actions n) ls d ∧
    (∀ I, (d.value I)⁻¹ = (operandReading Operator.multiply.precedence e (e.reading I)).inner) ∧
    (d.isInteger = true → base.isInteger = true)

theorem isSum_eq_false {e : Expr} (h : Operator.multiply.precedence ≤ e.precedence) :
    e.isSum = false := by
  unfold isSum
  split
  · simp [precedence, Operator.precedence] at h
  · rfl

namespace Written

variable {e : Expr}

/-- In parentheses a parameter is a base of a power. -/
theorem group (hs : s.IsArithmetic) (h : e.Written s n) : ∃ ls, PowerText s (n + 1)
    ("(" ++ e.text ++ ")") (fun I => .plain (e.reading I).lead) e ls (n + 1) := by
  obtain ⟨ls, es, hterms⟩ := h.terms
  exact ⟨_, hterms.group hs⟩

/-- A parameter is written as a factor, in parentheses if it is a sum. -/
theorem writtenFactor (hs : s.IsArithmetic) (h : e.Written s n) : e.WrittenFactor s (n + 1) where
  factor := by
    simp only [Piece.operand, operandText, operandReading, node_piece, Bool.false_and,
      Bool.or_false, decide_eq_true_eq]
    split_ifs with hlt
    · obtain ⟨ls, hgroup⟩ := h.group hs
      exact ⟨_, _, _, hgroup.factorText⟩
    · obtain ⟨ls, j, m, hfactors⟩ := h.factors (isSum_eq_false (Nat.not_lt.1 hlt))
      exact ⟨_, _, _, hfactors.mono (Nat.le_succ n) le_rfl⟩
  divisor base hbase hzero := by
    obtain ⟨ls, d, hspells, hd, hvalue, hint⟩ := h.divisor base hbase hzero
    exact ⟨ls, d, hspells, hd.mono (termAt_mono (Nat.le_succ n)), hvalue, hint⟩

/-- As the base of a power a parameter is in parentheses unless it is a term. -/
theorem base (hs : s.IsArithmetic) (h : e.Written s n) : ∃ ls j, PowerText s (n + 1)
    (e.piece.operand Operator.power.precedence false)
    (fun I => operandReading Operator.power.precedence e (e.reading I)) e ls j := by
  simp only [Piece.operand, operandText, operandReading, node_piece, Bool.false_and,
    Bool.or_false, decide_eq_true_eq]
  split_ifs with hlt
  · obtain ⟨ls, hgroup⟩ := h.group hs
    exact ⟨_, _, hgroup⟩
  · obtain ⟨ls, j, hpower⟩ := h.power (Nat.not_lt.1 hlt)
    exact ⟨_, _, hpower.mono (Nat.le_succ n)⟩

/-- As an exponent a parameter is a single term. -/
theorem exponent (hs : s.IsArithmetic) (h : e.Written s n) : ∃ ls a,
    Spells (e.piece.operand Operator.power.precedence true) ls ∧ termAt s.actions (n + 1) ls a ∧
      ∀ I, a.value I = (e.reading I).lead := by
  simp only [Piece.operand, operandText, node_piece, Bool.true_and]
  split_ifs with hle
  · obtain ⟨ls, es, hterms⟩ := h.terms
    obtain ⟨a, ha, hvalue, -⟩ := hterms.expression hs
    exact ⟨_, a, hterms.spells.group, Term.group '(' ')' ha, hvalue⟩
  · simp only [Bool.or_eq_true, decide_eq_true_eq, beq_iff_eq, not_or, Nat.not_lt] at hle
    obtain ⟨ls, a, hspells, ha, hvalue⟩ := h.atom (Nat.lt_of_le_of_ne hle.1 (Ne.symm hle.2))
    exact ⟨ls, a, hspells, termAt_mono (Nat.le_succ n) _ _ ha, hvalue⟩

/-- Behind a slash a parameter is a power. -/
theorem divided (hs : s.IsArithmetic) (h : e.Written s n)
    (hprec : Operator.multiply.precedence < e.precedence →
      Operator.power.precedence ≤ e.precedence) : ∃ ls d,
    Spells (operandText Operator.multiply.precedence true e e.text) ls ∧
      Power s.actions (termAt s.actions (n + 1)) ls d ∧ (∀ I, d.value I = (e.reading I).lead) ∧
      d.Matches e := by
  simp only [operandText, Bool.true_and]
  split_ifs with hle
  · obtain ⟨ls, hgroup⟩ := h.group hs
    obtain ⟨d, hd, hvalue, hmatch⟩ := hgroup.exists_power
    exact ⟨_, d, hgroup.spells, hd,
      fun I => by rw [hvalue]; simp [Reading.lead, Reading.plain], hmatch⟩
  · simp only [Bool.or_eq_true, decide_eq_true_eq, beq_iff_eq, not_or, Nat.not_lt] at hle
    obtain ⟨ls, j, hpower⟩ := h.power (hprec (Nat.lt_of_le_of_ne hle.1 (Ne.symm hle.2)))
    obtain ⟨d, hd, hvalue, hmatch⟩ := (hpower.mono (Nat.le_succ n)).exists_power
    exact ⟨ls, d, hpower.spells, hd, hvalue, hmatch⟩

end Written

/-! ## Powers -/

theorem text_power (b x : Expr) : (Expr.app .power [b, x]).text =
    b.piece.operand Operator.power.precedence false ++
      ("^" ++ x.piece.operand Operator.power.precedence true) := by
  simp [text, piece, pieces, Operator.text, Operator.mark, Operator.infixText, String.append_assoc]

theorem reading_power (I : Interpretation) (b x : Expr) : (Expr.app .power [b, x]).reading I =
    (operandReading Operator.power.precedence b (b.reading I)).raised I.power (x.reading I).lead := by
  simp [reading, readings, applicationReading]

theorem exists_powerText_power (hs : s.IsArithmetic) {b x : Expr} (hb : b.Written s n)
    (hx : x.Written s n) : ∃ ls j, PowerText s (n + 1) (Expr.app .power [b, x]).text
      (fun I => (Expr.app .power [b, x]).reading I) (.app .power [b, x]) ls j := by
  obtain ⟨ls, j, hbase⟩ := hb.base hs
  obtain ⟨ls', a', hspells, ha', hvalue'⟩ := hx.exponent hs
  have hcaret : Spells ("^" ++ x.piece.operand Operator.power.precedence true)
      (.mark .caret '^' :: ls') := Spells.mark (by decide) (by decide) hspells.lexemes
  have hstands : Stands ("^" ++ x.piece.operand Operator.power.precedence true).toList := by
    rw [String.toList_append]
    exact LexemeKind.IsMark.stands (k := .caret) (by decide) _
  refine ⟨ls ++ .mark .caret '^' :: ls', j, ?_⟩
  rw [text_power]
  simp only [reading_power]
  refine ⟨hbase.grade, hbase.spells.append hbase.nonempty hcaret.lexemes hstands, by simp, ?_,
    fun _ => rfl, fun n' i hi hn => ?_⟩
  · intro l hl
    obtain ⟨l', ls₁, rfl⟩ := List.exists_cons_of_ne_nil hbase.nonempty
    exact hbase.unsigned l hl
  · obtain ⟨a, ha, hvalue, -⟩ := hbase.derives n' i hi hn
    refine ⟨.app .power [a, a'], ?_, fun I => ?_, matches_of_isNumber_eq_false rfl⟩
    · rw [← List.append_assoc]
      exact power_concat hs ha (termAt_mono hn _ _ ha')
    · rw [value_power, hvalue, hvalue']
      rfl

theorem inner_reading_reciprocal (I : Interpretation) {b x : Expr}
    (hx : x.same (.num .minusOne) = true)
    (hb : (operandReading Operator.power.precedence b (b.reading I)).signs = 0) :
    (operandReading Operator.multiply.precedence (.app .power [b, x])
      ((Expr.app .power [b, x]).reading I)).inner = (b.reading I).lead⁻¹ := by
  obtain rfl := eq_of_same_minusOne hx
  have hprec : ¬(Expr.app .power [b, .num (.integer (-1))]).precedence <
      Operator.multiply.precedence := by simp [precedence, Operator.precedence]
  have hlead : ((Expr.num (.integer (-1))).reading I).lead = -1 := by
    simp [reading, Number.reading, Number.isNegative, Reading.lead, Number.value]
  have hbase : (operandReading Operator.power.precedence b (b.reading I)).body 1 =
      (b.reading I).lead := by
    unfold operandReading at hb ⊢
    split_ifs at hb ⊢
    · simp [Reading.plain]
    · simp [Reading.lead, hb]
  rw [operandReading, if_neg hprec, reading_power, hlead, ← I.power_minusOne, ← hbase]
  simp [Reading.inner, Reading.raised]

/-- A power is written if its base and its exponent are. -/
theorem written_power (hs : s.IsArithmetic) {b x : Expr} (hb : b.Written s n) (hx : x.Written s n)
    (hprec : Operator.multiply.precedence < b.precedence →
      Operator.power.precedence ≤ b.precedence) :
    (Expr.app .power [b, x]).Written s (n + 1) := by
  obtain ⟨ls, j, hpower⟩ := exists_powerText_power hs hb hx
  have hfactors := hpower.factorText.mono le_rfl (Nat.le_succ (n + 1))
  refine ⟨?_, fun _ => ⟨_, _, _, hfactors⟩, fun _ => ⟨_, _, hpower⟩, fun h => ?_,
    fun base hbase hzero => ?_⟩
  · obtain ⟨es, hterms⟩ := hfactors.termsText hs rfl
    exact ⟨_, _, hterms⟩
  · simp [precedence] at h
  · obtain ⟨hx', rfl⟩ : x.same (.num .minusOne) = true ∧ b = base := by
      simpa [reciprocalBase?, asPower?] using hbase
    obtain ⟨ls', d, hspells, hd, hvalue, hmatch⟩ := hb.divided hs hprec
    obtain ⟨lsb, jb, hbase'⟩ := hb.base hs
    have hd0 : d.isZero = false := by
      by_contra hd0
      have hb0 := hmatch.isZero (by simpa using hd0)
      rw [hzero] at hb0
      cases hb0
    refine ⟨ls', d, hspells, ⟨hd, hd0⟩, fun I => ?_, hmatch.isInteger⟩
    · rw [hvalue, inner_reading_reciprocal I hx' (hbase'.signs I)]

/-! ## Products -/

/-- A product is written if its factors are and no divisor in its text is zero. -/
theorem written_product (hs : s.IsArithmetic) {p q : Expr} {ps : List Expr}
    (hexact : ∀ x, p ≠ .num (.double x)) (hps : ∀ x ∈ p :: q :: ps, x.Written s n)
    (hzero : ∀ d ∈ writtenDivisors (p :: q :: ps), d.isZero = false) :
    (Expr.app .multiply (p :: q :: ps)).Written s (n + 1) := by
  have hfirst : p.isNumber = true → ∃ ls j m,
      FactorText s (n + 1) p.text (fun I => p.reading I) p ls (n + 1) j m := fun hp => by
    have hsum : p.isSum = false := by
      cases p with
      | num m => rfl
      | sym name role => cases hp
      | app op qs => cases hp
    obtain ⟨ls, j, m, h⟩ := (hps p (by simp)).factors hsum
    exact ⟨_, _, _, h.mono (Nat.le_succ n) le_rfl⟩
  obtain ⟨ls, j, m, hfactors⟩ := exists_factorText_product hs hfirst hexact
    (fun x hx => (hps x hx).writtenFactor hs) hzero
  refine ⟨?_, fun _ => ⟨_, _, _, hfactors⟩, fun h => ?_, fun h => ?_, fun base hbase => ?_⟩
  · obtain ⟨es, hterms⟩ := hfactors.termsText hs rfl
    exact ⟨_, _, hterms⟩
  · simp [precedence, Operator.precedence] at h
  · simp [precedence, Operator.precedence] at h
  · have hname : (Operator.multiply.name == Operator.power.name) = false := by decide
    cases ps <;> simp [reciprocalBase?, asPower?, hname] at hbase

/-! ## Sums -/

theorem add_le_precedence_num (m : Number) :
    Operator.add.precedence ≤ (Expr.num m).precedence := by
  simp only [precedence]
  split_ifs
  · decide
  · split <;> decide

theorem add_le_precedence_of_isNumber {e : Expr} (h : e.isNumber = true) :
    Operator.add.precedence ≤ e.precedence := by
  cases e with
  | num m => exact add_le_precedence_num m
  | sym name role => cases h
  | app op ps => cases h

/-- The text of terms after the first. -/
structure TermsTail (s : Scope) (n : ℕ) (ps : List Expr) (ls : List Lexeme) (es : List Expr) :
    Prop where
  lexemes : lexemes (termsText (ps.map piece)).toList = ls
  stands : Stands (termsText (ps.map piece)).toList
  derives : Many (Signed s.actions (termAt s.actions n)) ls es
  value : ∀ I, (es.map (Expr.value I)).sum = (ps.map fun p => (p.reading I).lead).sum
  length : ps.length ≤ es.length

theorem lexemes_withSign {t : String} {ls : List Lexeme} (h : Spells t ls) :
    lexemes (if t.toList.head? = some '-' then t else "+" ++ t).toList = withSign ls ∧
      Stands (if t.toList.head? = some '-' then t else "+" ++ t).toList := by
  split_ifs with hminus
  · obtain ⟨cs, hcs⟩ := List.head?_eq_some_iff.1 hminus
    have hls := h.lexemes
    rw [hcs, LexemeKind.IsMark.lexemes (k := .minus) (by decide)] at hls
    rw [hcs]
    refine ⟨?_, LexemeKind.IsMark.stands (k := .minus) (by decide) _⟩
    rw [LexemeKind.IsMark.lexemes (k := .minus) (by decide), ← hls]
    rfl
  · have hplus : Spells ("+" ++ t) (.mark .plus '+' :: ls) :=
      Spells.mark (by decide) (by decide) h.lexemes
    refine ⟨?_, ?_⟩
    · rw [hplus.lexemes]
      unfold withSign
      split
      · next c ls' => exact absurd (h.head_eq_minus.2 ⟨c, rfl⟩) hminus
      · rfl
    · rw [String.toList_append]
      exact LexemeKind.IsMark.stands (k := .plus) (by decide) _

/-- The text of a term of a sum. -/
theorem Written.summand (hs : s.IsArithmetic) {e : Expr} (h : e.Written s n) : ∃ ls es,
    TermsText s (n + 1) (e.piece.operand Operator.add.precedence false) (fun I => e.reading I) e
      ls es := by
  simp only [Piece.operand, operandText, node_piece, Bool.false_and, Bool.or_false,
    decide_eq_true_eq]
  split_ifs with hlt
  · obtain ⟨ls, hgroup⟩ := h.group hs
    have he : e.isNumber = false := by
      cases e with
      | num m => exact absurd (add_le_precedence_num m) (Nat.not_le.2 hlt)
      | sym name role => rfl
      | app op ps => rfl
    obtain ⟨es, hterms⟩ := (hgroup.factorText.mono le_rfl (Nat.le_succ (n + 1))).termsText hs he
    refine ⟨_, es, { hterms with value := fun I => ?_ }⟩
    rw [hterms.value]
    simp [Reading.lead, Reading.plain]
  · obtain ⟨ls, es, hterms⟩ := h.terms
    exact ⟨ls, es, hterms.mono (Nat.le_succ n)⟩

/-- The terms after the first one follow with their signs. -/
theorem exists_termsTail (hs : s.IsArithmetic) (ps : List Expr) (hps : ∀ p ∈ ps, p.Written s n) :
    ∃ ls es, TermsTail s (n + 1) ps ls es := by
  induction ps with
  | nil => exact ⟨[], [], by simp [termsText], by simp [termsText], .nil, by simp, le_rfl⟩
  | cons p ps ih =>
    obtain ⟨ls₂, es₂, htail⟩ := ih fun x hx => hps x (by simp [hx])
    obtain ⟨ls₁, es₁, hterms⟩ := (hps p (by simp)).summand hs
    obtain ⟨hlex, hstands⟩ := lexemes_withSign hterms.spells
    refine ⟨withSign ls₁ ++ ls₂, es₁ ++ es₂, ?_, ?_, hterms.derives.append htail.derives, ?_, ?_⟩
    · rw [List.map_cons, termsText, String.toList_append, lexemes_append htail.stands, hlex,
        htail.lexemes]
    · rw [List.map_cons, termsText, String.toList_append]
      exact hstands.append htail.stands
    · intro I
      rw [List.map_append, List.sum_append, hterms.value, htail.value, List.map_cons, List.sum_cons]
    · have hone := List.length_pos_of_ne_nil hterms.nonempty
      have hlength := htail.length
      rw [List.length_cons, List.length_append]
      omega

theorem withSign_append {ls : List Lexeme} (h : ls ≠ []) (ls' : List Lexeme) :
    withSign (ls ++ ls') = withSign ls ++ ls' := by
  obtain ⟨l, ls, rfl⟩ := List.exists_cons_of_ne_nil h
  cases l with
  | mark k c => cases k <;> rfl
  | _ => rfl

theorem text_sum (p q : Expr) (ps : List Expr) : (Expr.app .add (p :: q :: ps)).text =
    p.piece.operand Operator.add.precedence false ++ termsText ((q :: ps).map piece) := by
  simp [text, piece, pieces_eq_map, Operator.text, Operator.mark, Operator.infixText, sumText]

theorem reading_sum (I : Interpretation) (ps : List Expr) :
    (Expr.app .add ps).reading I = .plain (ps.map fun p => (p.reading I).lead).sum := by
  rw [reading, readings_eq_map, applicationReading]
  · simp [Interpretation.apply, Function.comp_def]
  · simp
  · simp

/-- A sum is written if its terms are. -/
theorem written_sum (hs : s.IsArithmetic) {p q : Expr} {ps : List Expr}
    (hps : ∀ x ∈ p :: q :: ps, x.Written s n) :
    (Expr.app .add (p :: q :: ps)).Written s (n + 1) := by
  obtain ⟨ls₁, es₁, hterms⟩ := (hps p (by simp)).summand hs
  obtain ⟨ls₂, es₂, htail⟩ := exists_termsTail hs (q :: ps) fun x hx => hps x (by simp [hx])
  refine ⟨⟨ls₁ ++ ls₂, es₁ ++ es₂, ?_, ?_, fun c hc => ?_, ?_, ?_, fun I => ?_, fun a ha => ?_⟩,
    fun h => ?_, fun h => ?_, fun h => ?_, fun base hbase => ?_⟩
  · rw [text_sum]
    exact hterms.spells.append hterms.lexeme htail.lexemes htail.stands
  · simp [hterms.lexeme]
  · obtain ⟨l, ls, rfl⟩ := List.exists_cons_of_ne_nil hterms.lexeme
    exact hterms.notPlus c hc
  · simp [hterms.nonempty]
  · rw [withSign_append hterms.lexeme]
    exact hterms.derives.append htail.derives
  · rw [List.map_append, List.sum_append, hterms.value, htail.value, reading_sum]
    simp [Reading.lead, Reading.plain]
  · have hone := List.length_pos_of_ne_nil hterms.nonempty
    have hlength := htail.length
    have htwo := congrArg List.length ha
    simp only [List.length_append, List.length_cons, List.length_nil] at htwo hlength
    omega
  · cases h
  · simp [precedence, Operator.precedence] at h
  · simp [precedence, Operator.precedence] at h
  · have hname : (Operator.add.name == Operator.power.name) = false := by decide
    cases ps <;> simp [reciprocalBase?, asPower?, hname] at hbase

/-! ## Terms -/

/-- What is a single term is written as itself. -/
theorem written_of_termAt (hs : s.IsArithmetic) {e a : Expr} {v : Interpretation → ℚ}
    {ls : List Lexeme} (h : termAt s.actions n ls a) (hspells : Spells e.text ls) (hne : ls ≠ [])
    (hunsigned : Unsigned ls) (hreading : ∀ I, e.reading I = .plain (v I))
    (hvalue : ∀ I, a.value I = v I) (ha : a.isNumber = false) (he : e.isNumber = false)
    (hbase : e.reciprocalBase? = none) : e.Written s n := by
  have hpower : PowerText s n e.text (fun I => e.reading I) e ls n := by
    simp only [hreading]
    exact powerText_of_termAt hs le_rfl h hspells hne hunsigned hvalue
      (matches_of_isNumber_eq_false ha)
  have hfactors := hpower.factorText.mono le_rfl (Nat.le_succ n)
  refine ⟨?_, fun _ => ⟨_, _, _, hfactors⟩, fun _ => ⟨_, _, hpower⟩,
    fun _ => ⟨ls, a, hspells, h, fun I => ?_⟩, fun base hsome => ?_⟩
  · obtain ⟨es, hterms⟩ := hfactors.termsText hs he
    exact ⟨_, _, hterms⟩
  · rw [hvalue, hreading]
    simp [Reading.lead, Reading.plain]
  · rw [hbase] at hsome
    cases hsome

/-- A symbol is written if its name is read as a symbol. -/
theorem written_sym (hs : s.IsArithmetic) {name : String} {role role' : Role}
    (hname : IsName name.toList)
    (hsymbol : ∀ position, s.symbol name position = .ok (.sym name role')) :
    (Expr.sym name role).Written s (n + 1) := by
  have hterm : termAt s.actions (n + 1) [.name name.toList] (.sym name role') := by
    refine Term.name fun position => ?_
    rw [String.ofList_toList]
    exact hsymbol position
  refine written_of_termAt hs (v := fun I => I.symbol name) hterm (spells_name hname) (by simp)
    (by simp [Unsigned]) (fun I => ?_) (fun I => value_sym name role') rfl rfl rfl
  rw [reading]

/-- The parameters of a call are expressions with commas between them. -/
theorem exists_parameters (hs : s.IsArithmetic) (p : Expr) {ps : List Expr}
    (hps : ∀ x ∈ p :: ps, x.Written s n) : ∃ ls₁ ls₂ a as,
      lexemes (",".intercalate ((p :: ps).map text)).toList = ls₁ ++ ls₂ ∧
      Expression s.actions (termAt s.actions n) ls₁ a ∧
      Many (After .comma (Expression s.actions (termAt s.actions n))) ls₂ as ∧
      ∀ I, (a :: as).map (Expr.value I) = (p :: ps).map fun x => (x.reading I).lead := by
  obtain ⟨ls, es, hterms⟩ := (hps p (by simp)).terms
  obtain ⟨a, ha, hvalue, -⟩ := hterms.expression hs
  -- the first parameter is fixed before the induction, which puts the comma in front of the others
  induction ps generalizing p ls es a with
  | nil =>
    refine ⟨ls, [], a, [], ?_, ha, .nil, fun I => by simp [hvalue]⟩
    rw [List.map_singleton, String.intercalate_singleton, hterms.spells.lexemes, List.append_nil]
  | cons q ps ih =>
    have hqs : ∀ x ∈ q :: ps, x.Written s n := fun x hx => hps x (List.mem_cons_of_mem p hx)
    obtain ⟨lsq, esq, htermsq⟩ := (hqs q (by simp)).terms
    obtain ⟨b, hb, hvalueb, -⟩ := htermsq.expression hs
    obtain ⟨ls₁, ls₂, a', as', hlex, ha', has', hvalues⟩ := ih q hqs lsq esq htermsq b hb hvalueb
    have hcomma : Spells ("," ++ ",".intercalate ((q :: ps).map text))
        (.mark .comma ',' :: (ls₁ ++ ls₂)) := Spells.mark (by decide) (by decide) hlex
    have hstands : Stands ("," ++ ",".intercalate ((q :: ps).map text)).toList := by
      rw [String.toList_append]
      exact LexemeKind.IsMark.stands (k := .comma) (by decide) _
    refine ⟨ls, .mark .comma ',' :: ls₁ ++ ls₂, a, a' :: as', ?_, ha, .cons (.intro ',' ha') has',
      fun I => ?_⟩
    · rw [List.map_cons, List.map_cons, String.intercalate_cons_cons, ← List.map_cons,
        String.append_assoc]
      exact (hterms.spells.append hterms.lexeme hcomma.lexemes hstands).lexemes
    · rw [List.map_cons, hvalues, hvalue]
      rfl

/-- A call is written if its name is read as its operator and its parameters are written. -/
theorem written_call (hs : s.IsArithmetic) {op : Operator} (hname : IsName op.name.toList)
    (hupper : Text.allUpper op.name = true) (hop : s.operator? op.name = some op) {ps : List Expr}
    (htext : (Expr.app op ps).text = op.callText (ps.map piece))
    (hreading : ∀ I, (Expr.app op ps).reading I =
      .plain (I.apply op (ps.map fun p => (p.reading I).lead)))
    (hbase : (Expr.app op ps).reciprocalBase? = none) (hps : ∀ p ∈ ps, p.Written s n) :
    (Expr.app op ps).Written s (n + 1) := by
  -- a call may be without parameters, and then nothing stands between its parentheses
  obtain ⟨ls, as, hlex, hparams, hvalues⟩ : ∃ ls as,
      lexemes (",".intercalate (ps.map text)).toList = ls ∧
      Parameters s.actions (termAt s.actions n) ls as ∧
      ∀ I, as.map (Expr.value I) = ps.map fun p => (p.reading I).lead := by
    cases ps with
    | nil => exact ⟨[], [], by simp, .none, by simp⟩
    | cons p ps =>
      obtain ⟨ls₁, ls₂, a, as, hlex, ha, has, hvalues⟩ := exists_parameters hs p hps
      exact ⟨_, _, hlex, .some ha has, hvalues⟩
  have hsymbol : ∀ position, s.symbol (String.ofList op.name.toList) position =
      .ok (.sym op.name (.operator op)) := fun position => by
    simp [Scope.symbol, hupper, hop, ofOperator]
  have hterm : termAt s.actions (n + 1)
      (.name op.name.toList :: .mark .opening '(' :: ls ++ [.mark .closing ')']) (.app op as) :=
    Term.call '(' ')' hparams ⟨_, _, hsymbol, rfl⟩
  refine written_of_termAt hs hterm ?_ (by simp) (by simp [Unsigned]) hreading (fun I => ?_) rfl rfl
    hbase
  · have hclose : Spells (")" ++ "") [.mark .closing ')'] :=
      Spells.mark (by decide) (by decide) lexemes_nil
    have hargs : lexemes (",".intercalate (ps.map text) ++ ")").toList =
        ls ++ [.mark .closing ')'] := by
      rw [String.toList_append, lexemes_append (by decide), hlex]
      exact congrArg (ls ++ ·) hclose.lexemes
    have hopen : Spells ("(" ++ (",".intercalate (ps.map text) ++ ")"))
        (.mark .opening '(' :: (ls ++ [.mark .closing ')'])) :=
      Spells.mark (by decide) (by decide) hargs
    have hstands : Stands ("(" ++ (",".intercalate (ps.map text) ++ ")")).toList := by
      rw [String.toList_append]
      exact LexemeKind.IsMark.stands (k := .opening) (by decide) _
    have hcall := (spells_name hname).append (by simp) hopen.lexemes hstands
    have htexts : (ps.map piece).map Piece.text = ps.map text := by simp [text]
    rw [htext, Operator.callText, htexts, String.append_assoc, String.append_assoc]
    exact hcall
  · rw [value_app, hvalues]

/-! ## Numbers -/

/-- A number without sign and slash is a single term. -/
theorem exists_termAt_num {m : Number} (hm : m.hasText = true) (hexact : m.toRat?.isSome = true)
    (hprec : Operator.power.precedence ≤ (Expr.num m).precedence) :
    ∃ ls a, termAt s.actions 1 ls a ∧ Spells m.text ls ∧ ls ≠ [] ∧ Unsigned ls ∧
      m.reading = .plain m.value ∧ (∀ I, a.value I = m.value) ∧ a.Matches (.num m) := by
  have hneg : m.isNegative = false := by
    by_contra hneg
    rw [Bool.not_eq_false] at hneg
    simp [precedence, hneg, Operator.precedence] at hprec
  have hreading : m.reading = .plain m.value := by rw [Number.reading, hneg]; rfl
  cases m with
  | integer k =>
    have hk : ¬k < 0 := by simpa [Number.isNegative] using hneg
    have habs : (k.natAbs : ℤ) = k := by omega
    refine ⟨_, _, termAt_numeral (length_toDigits_of_hasDecimal hm), ?_, by simp,
      by simp [Unsigned], hreading, fun I => ?_, ?_⟩
    · simpa [Number.text, decimalInt, hk] using spells_decimalNat k.natAbs
    · simp [Number.value, habs, -Nat.cast_natAbs]
    · rintro m hm
      cases hm
      exact ⟨.integer k, rfl, by rw [habs]; rfl⟩
  | unit =>
    refine ⟨_, _, termAt_numeral (k := 1) (by decide), ?_, by simp, by simp [Unsigned], hreading,
      fun I => by simp [Number.value], ?_⟩
    · exact spells_decimalNat 1
    · rintro m hm
      cases hm
      exact ⟨.unit, rfl, rfl⟩
  | fraction q => simp [precedence, hneg, Operator.precedence] at hprec
  | double x => cases hexact

/-- Every exact number with a text is written. -/
theorem written_num (hs : s.IsArithmetic) {m : Number} (hm : m.hasText = true)
    (hexact : m.toRat?.isSome = true) : (Expr.num m).Written s (n + 1) := by
  obtain ⟨ls, f, hliteral⟩ := exists_literalText hs hm hexact
  have hreading : ∀ I, (Expr.num m).reading I = m.reading := fun I => by rw [reading]
  have hone : 1 ≤ n + 1 := Nat.le_add_left 1 n
  refine ⟨?_, fun _ => ?_, fun hprec => ?_, fun hprec => ?_, fun base hbase => by cases hbase⟩
  · simp only [hreading]
    exact ⟨_, _, hliteral.termsText.mono hone⟩
  · simp only [hreading]
    exact ⟨_, _, _, (hliteral.factorText hs).mono hone (by omega)⟩
  · obtain ⟨ls, a, ha, hspells, hne, hunsigned, hplain, hvalue, hmatch⟩ :=
      exists_termAt_num (s := s) hm hexact hprec
    simp only [hreading, hplain]
    exact ⟨_, _, powerText_of_termAt hs hone ha hspells hne hunsigned hvalue hmatch⟩
  · obtain ⟨ls, a, ha, hspells, -, -, hplain, hvalue, -⟩ :=
      exists_termAt_num (s := s) hm hexact (Nat.le_of_lt hprec)
    refine ⟨ls, a, hspells, termAt_mono hone _ _ ha, fun I => ?_⟩
    rw [hreading, hplain, hvalue]
    simp [Reading.lead, Reading.plain]

end Expr

/-- What can be written so that the scope reads it back: exact numbers, names that are read as
symbols, and built-in operators that are read under their names. -/
def Scope.writable (s : Scope) : Material where
  number m := m.toRat?.isSome = true
  symbol name _ := IsName name.toList ∧
    ∃ role, ∀ position, s.symbol name position = .ok (.sym name role)
  operator op := op.IsBuiltIn ∧ s.operator? op.name = some op

/-- What can be written without definitions. -/
def Scope.legible (s : Scope) : Material where
  number m := m.toRat?.isSome = true
  symbol name _ := IsName name.toList ∧
    ∃ role, ∀ position, s.symbol name position = .ok (.sym name role)
  operator op := op.IsArithmetic

namespace Expr

theorem MadeOf.writable (hs : s.IsArithmetic) {e : Expr} (h : e.MadeOf s.legible) :
    e.MadeOf s.writable := by
  refine MadeOf.mono ?_ ?_ ?_ h
  · exact fun _ hm => hm
  · exact fun _ _ hsymbol => hsymbol
  · exact fun op hop => ⟨.inl hop, hs op hop⟩

/-! ### Divisions by zero -/

/-- No exact zero is written after a slash. -/
def NoZeroDivisor (e : Expr) : Prop :=
  e.EveryNode fun op ps => op = .multiply → ∀ d ∈ writtenDivisors ps, d.isZero = false

instance (e : Expr) : Decidable e.NoZeroDivisor := inferInstanceAs (Decidable (EveryNode _ e))

/-- No reciprocal of zero is written in the expression. -/
def NoZeroReciprocal (e : Expr) : Prop :=
  e.EveryNode fun op ps => ∀ base ∈ (Expr.app op ps).reciprocalBase?, base.isZero = false

instance (e : Expr) : Decidable e.NoZeroReciprocal := inferInstanceAs (Decidable (EveryNode _ e))

theorem NoZeroReciprocal.isZero_eq_false {e base : Expr} (h : e.NoZeroReciprocal)
    (hbase : e.reciprocalBase? = some base) : base.isZero = false := by
  cases e with
  | num m => cases hbase
  | sym name role => cases hbase
  | app op ps => exact (everyNode_app.1 h).1 base hbase

/-- Without a reciprocal of zero no slash has a zero behind it. -/
theorem NoZeroReciprocal.noZeroDivisor {e : Expr} (h : e.NoZeroReciprocal) : e.NoZeroDivisor := by
  induction e using Expr.induction with
  | num m => exact everyNode_num
  | sym name role => exact everyNode_sym
  | app op ps ih =>
    obtain ⟨-, hps⟩ := everyNode_app.1 h
    refine everyNode_app.2 ⟨fun _ d hd => ?_, fun p hp => ih p hp (hps p hp)⟩
    obtain ⟨p, hp, hbase⟩ := exists_reciprocal_of_mem_writtenDivisors hd
    exact NoZeroReciprocal.isZero_eq_false (hps p hp) hbase

/-! ### Equations -/

/-- The definition is written as an equation. -/
def isEquation : Expr → Bool
  | .app (.define _) (_ :: _ :: _) => true
  | _ => false

/-- There are no equations in the expression. -/
def EquationFree (e : Expr) : Prop := e.EveryNode fun op ps => (Expr.app op ps).isEquation = false

instance (e : Expr) : Decidable e.EquationFree := inferInstanceAs (Decidable (EveryNode _ e))

theorem equationFree_of_legible {e : Expr} (h : e.MadeOf s.legible) : e.EquationFree := by
  induction e using Expr.induction with
  | num m => exact everyNode_num
  | sym name role => exact everyNode_sym
  | app op ps ih =>
    obtain ⟨hop, hps⟩ := madeOf_app.1 h
    refine everyNode_app.2 ⟨?_, fun p hp => ih p hp (hps p hp)⟩
    rcases hop with rfl | rfl | rfl <;> rfl

/-! ### Assembly -/

theorem allHaveText_iff {ps : List Expr} : allHaveText ps = true ↔ ∀ p ∈ ps, p.hasText = true := by
  induction ps with
  | nil => simp [allHaveText]
  | cons p ps ih => simp [allHaveText, ih]

/-- What binds more than a product binds at least as much as a power. -/
theorem power_le_precedence {e : Expr} (h : e.MadeOf s.writable)
    (hlt : Operator.multiply.precedence < e.precedence) :
    Operator.power.precedence ≤ e.precedence := by
  cases e with
  | num m =>
    revert hlt
    simp only [precedence]
    split_ifs
    · decide
    · split <;> decide
  | sym name role =>
    rw [show (Expr.sym name role).precedence = atomPrecedence from rfl]
    decide
  | app op ps =>
    obtain ⟨⟨hop, -⟩, -⟩ := madeOf_app.1 h
    rw [show (Expr.app op ps).precedence = op.precedence from rfl] at hlt ⊢
    rcases hop with (rfl | rfl | rfl) | ⟨id, rfl⟩ <;>
      simp [Operator.precedence] at hlt ⊢

/-- An application that is not written with its operator between two parameters or more is a call.
-/
theorem call_of_not_infix {op : Operator} (hop : op.IsBuiltIn) {ps : List Expr}
    (h : ¬(2 ≤ ps.length ∧ (op = .power → ps.length = 2)))
    (hfree : (Expr.app op ps).isEquation = false) :
    (Expr.app op ps).text = op.callText (ps.map piece) ∧
      (∀ I, (Expr.app op ps).reading I =
        .plain (I.apply op (ps.map fun p => (p.reading I).lead))) ∧
      (Expr.app op ps).reciprocalBase? = none := by
  cases ps with
  | nil =>
    rcases hop with (rfl | rfl | rfl) | ⟨id, rfl⟩ <;>
      simp [text, piece, pieces, Operator.text, reading, readings, applicationReading,
        reciprocalBase?, asPower?]
  | cons p ps =>
    cases ps with
    | nil =>
      rcases hop with (rfl | rfl | rfl) | ⟨id, rfl⟩ <;>
        simp [text, piece, pieces, Operator.text, reading, readings, applicationReading,
          reciprocalBase?, asPower?]
    | cons q ps =>
      rcases hop with (rfl | rfl | rfl) | ⟨id, rfl⟩
      · simp at h
      · simp at h
      · cases ps with
        | nil => simp at h
        | cons r ps =>
          simp [text, piece, pieces, pieces_eq_map, Operator.text, Operator.mark,
            Operator.infixText, reading, readings, readings_eq_map, applicationReading,
            reciprocalBase?, asPower?, Function.comp_def]
      · cases hfree

/-- Writable expressions without equations are written, unless a zero would stand after a slash. -/
theorem written_of_writable (hs : s.IsArithmetic) {e : Expr} (he : e.MadeOf s.writable)
    (htext : e.hasText = true) (hfree : e.EquationFree) (hzero : e.NoZeroDivisor) {limit : ℕ}
    (hdeep : e.deeperThan limit = false) : e.Written s (limit + 1) := by
  induction e using Expr.induction generalizing limit with
  | num m => exact written_num hs (by simpa [hasText] using htext) (madeOf_num.1 he)
  | sym name role =>
    obtain ⟨hname, role', hsymbol⟩ := madeOf_sym.1 he
    exact written_sym hs hname hsymbol
  | app op ps ih =>
    obtain ⟨⟨hop, hscope⟩, hps⟩ := madeOf_app.1 he
    obtain ⟨hequation, hfrees⟩ := everyNode_app.1 hfree
    obtain ⟨hnode, hzeros⟩ := everyNode_app.1 hzero
    cases limit with
    | zero => cases hdeep
    | succ limit =>
      have hdeeps := anyDeeperThan_eq_false.1 hdeep
      have htexts := allHaveText_iff.1 htext
      have hwritten : ∀ p ∈ ps, p.Written s (limit + 1) := fun p hp =>
        ih p hp (hps p hp) (htexts p hp) (hfrees p hp) (hzeros p hp) (hdeeps p hp)
      by_cases hinfix : 2 ≤ ps.length ∧ (op = .power → ps.length = 2)
      · obtain ⟨htwo, hpower⟩ := hinfix
        rcases hop with (rfl | rfl | rfl) | ⟨id, rfl⟩
        · match ps, htwo with
          | p :: q :: ps, _ => exact written_sum hs hwritten
        · match ps, htwo with
          | p :: q :: ps, _ =>
            refine written_product hs ?_ hwritten (hnode rfl)
            -- doubles are not writable
            rintro x rfl
            have hexact := madeOf_num.1 (hps (.num (.double x)) (by simp))
            cases hexact
        · match ps, hpower rfl with
          | [b, x], _ =>
            exact written_power hs (hwritten b (by simp)) (hwritten x (by simp))
              (power_le_precedence (hps b (by simp)))
        · match ps, htwo with
          | p :: q :: ps, _ => cases hequation
      · -- otherwise the operator is called
        obtain ⟨htext, hreading, hbase⟩ := call_of_not_infix hop hinfix hequation
        exact written_call hs hop.isName_name hop.allUpper_name hscope htext hreading hbase hwritten

/-- Legible expressions are written. -/
theorem written_of_legible (hs : s.IsArithmetic) {e : Expr} (he : e.MadeOf s.legible)
    (htext : e.hasText = true) (hzero : e.NoZeroReciprocal) {limit : ℕ}
    (hdeep : e.deeperThan limit = false) : e.Written s (limit + 1) :=
  written_of_writable hs (he.writable hs) htext (equationFree_of_legible he)
    hzero.noZeroDivisor hdeep

end Expr

end Reckoner
