import Reckoner.Proofs.Text.Written

/-!
# The text of an equation

A definition is written as an equation, and an equals sign joins whole expressions. The grammar has
a place for it outside of all parentheses only. So what is written with equations is read again if
they form a chain around everything else.
-/

namespace Reckoner

open Grammar Reckoner.Expr

variable {s : Scope} {n : ℕ}

namespace Expr

/-! ## Chains of equations -/

mutual

/-- Equations stand only in a chain around everything else. -/
def equationsOutside : Expr → Bool
  | .app op ps =>
    if (Expr.app op ps).isEquation then allEquationsOutside ps
    else decide (Expr.app op ps).EquationFree
  | _ => true

/-- In each of the expressions, equations stand only in a chain around everything else. -/
def allEquationsOutside : List Expr → Bool
  | [] => true
  | p :: ps => p.equationsOutside && allEquationsOutside ps

end

theorem allEquationsOutside_iff {ps : List Expr} :
    allEquationsOutside ps = true ↔ ∀ p ∈ ps, p.equationsOutside = true := by
  induction ps with
  | nil => simp [allEquationsOutside]
  | cons p ps ih => simp [allEquationsOutside, ih]

theorem equationsOutside_of_isEquation {op : Operator} {ps : List Expr}
    (h : (Expr.app op ps).isEquation = true) :
    (Expr.app op ps).equationsOutside = true ↔ ∀ p ∈ ps, p.equationsOutside = true := by
  rw [equationsOutside, if_pos h, allEquationsOutside_iff]

theorem equationsOutside_of_isEquation_eq_false {e : Expr} (h : e.isEquation = false) :
    e.equationsOutside = true ↔ e.EquationFree := by
  cases e with
  | num m => simp [equationsOutside, EquationFree]
  | sym name role => simp [equationsOutside, EquationFree]
  | app op ps => simp [equationsOutside, h]

/-- An equation is a definition with a target and a value, perhaps with more of them. -/
theorem isEquation_iff {op : Operator} {ps : List Expr} : (Expr.app op ps).isEquation = true ↔
    ∃ id p q qs, op = .define id ∧ ps = p :: q :: qs := by
  constructor
  · intro h
    unfold isEquation at h
    split at h
    · next heq =>
      cases heq
      exact ⟨_, _, _, _, rfl, rfl⟩
    · cases h
  · rintro ⟨id, p, q, qs, rfl, rfl⟩
    rfl

/-- An expression without equations has none in the wrong place. -/
theorem EquationFree.equationsOutside {e : Expr} (h : e.EquationFree) :
    e.equationsOutside = true := by
  cases e with
  | num m => rfl
  | sym name role => rfl
  | app op ps => exact (equationsOutside_of_isEquation_eq_false (everyNode_app.1 h).1).2 h

/-! ## Texts -/

theorem define_le_precedence {e : Expr} (h : e.MadeOf s.writable) (id : StoreId) :
    (Operator.define id).precedence ≤ e.precedence := by
  cases e with
  | num m => exact Nat.le_trans (by simp [Operator.precedence]) (add_le_precedence_num m)
  | sym name role => simp [precedence, Operator.precedence, atomPrecedence]
  | app op ps =>
    obtain ⟨⟨hop, -⟩, -⟩ := madeOf_app.1 h
    rcases hop with (rfl | rfl | rfl) | ⟨id', rfl⟩ <;> simp [precedence, Operator.precedence]

/-- The text of an equation is the texts of its sides with equals signs between them. -/
theorem text_define (id : StoreId) (p q : Expr) (ps : List Expr) :
    (Expr.app (.define id) (p :: q :: ps)).text = "=".intercalate
      ((p :: q :: ps).map fun x => x.piece.operand (Operator.define id).precedence false) := by
  have htwo : ¬ps.length + 1 + 1 < 2 := by omega
  simp [text, piece, pieces_eq_map, Operator.text, Operator.mark, Operator.infixText, htwo,
    Function.comp_def]

/-- The sides of an equation are not put in parentheses. -/
theorem text_equation {id : StoreId} {p q : Expr} {ps : List Expr}
    (h : ∀ x ∈ p :: q :: ps, x.MadeOf s.writable) :
    (Expr.app (.define id) (p :: q :: ps)).text = "=".intercalate ((p :: q :: ps).map text) := by
  have hside : ∀ x ∈ p :: q :: ps,
      x.piece.operand (Operator.define id).precedence false = x.text := fun x hx => by
    simp [Piece.operand, operandText, Nat.not_lt.2 (define_le_precedence (h x hx) id), text]
  rw [text_define, List.map_congr_left hside]

end Expr

/-! ## Derivations -/

/-- The text is one expression or several with equals signs between them. -/
structure DefinitionText (s : Scope) (n : ℕ) (t : String) (ls : List Lexeme) : Prop where
  spells : Spells t ls
  nonempty : ls ≠ []
  /-- What is read. -/
  derives : ∃ a, Definition s.actions (termAt s.actions n) ls a

namespace DefinitionText

variable {t u : String} {ls ls' : List Lexeme}

/-- An equals sign joins two texts that are read as definitions. -/
theorem equals (h : DefinitionText s n t ls) (h' : DefinitionText s n u ls') :
    DefinitionText s n (t ++ ("=" ++ u)) (ls ++ .mark .equals '=' :: ls') where
  spells := by
    have hmark : Spells ("=" ++ u) (.mark .equals '=' :: ls') :=
      Spells.mark (by decide) (by decide) h'.spells.lexemes
    refine h.spells.append h.nonempty hmark.lexemes ?_
    rw [String.toList_append]
    exact LexemeKind.IsMark.stands (k := .equals) (by decide) _
  nonempty := by simp
  derives := by
    obtain ⟨a, first, values⟩ := h.derives
    obtain ⟨a', first', values'⟩ := h'.derives
    have hall := Definition.intro first (values.append (.cons (.intro '=' first') values'))
    rw [← List.append_assoc] at hall
    exact ⟨_, hall⟩

theorem mono {n' : ℕ} (h : DefinitionText s n t ls) (hn : n ≤ n') : DefinitionText s n' t ls where
  spells := h.spells
  nonempty := h.nonempty
  derives := by
    obtain ⟨a, ha⟩ := h.derives
    exact ⟨a, ha.mono (termAt_mono hn)⟩

/-- Equals signs join any number of texts that are read as definitions. -/
theorem intercalate {p : Expr} {ps : List Expr}
    (h : ∀ x ∈ p :: ps, ∃ ls, DefinitionText s n x.text ls) :
    ∃ ls, DefinitionText s n ("=".intercalate ((p :: ps).map text)) ls := by
  induction ps generalizing p with
  | nil =>
    rw [List.map_singleton, String.intercalate_singleton]
    exact h p (by simp)
  | cons q ps ih =>
    obtain ⟨ls, hp⟩ := h p (by simp)
    obtain ⟨ls', hq⟩ := ih (p := q) fun x hx => h x (List.mem_cons_of_mem p hx)
    refine ⟨ls ++ .mark .equals '=' :: ls', ?_⟩
    rw [List.map_cons, List.map_cons, String.intercalate_cons_cons, ← List.map_cons,
      String.append_assoc]
    exact hp.equals hq

end DefinitionText

/-- The terms of an expression are a definition without an equals sign. -/
theorem TermsText.definitionText (hs : s.IsArithmetic) {t : String}
    {r : Interpretation → Reading} {e : Expr} {ls : List Lexeme} {es : List Expr}
    (h : TermsText s n t r e ls es) : DefinitionText s n t ls where
  spells := h.spells
  nonempty := h.lexeme
  derives := by
    obtain ⟨a, ha, -⟩ := h.expression hs
    have hdef := Definition.intro (A := s.actions) ha .nil
    rw [List.append_nil] at hdef
    exact ⟨_, hdef⟩

namespace Expr

/-- What is written can be read again, if equations stand outside of everything else and no zero
after a slash. -/
theorem exists_definitionText (hs : s.IsArithmetic) {e : Expr} (he : e.MadeOf s.writable)
    (htext : e.hasText = true) (houtside : e.equationsOutside = true) (hzero : e.NoZeroDivisor)
    {limit : ℕ} (hdeep : e.deeperThan limit = false) :
    ∃ ls, DefinitionText s (limit + 1) e.text ls := by
  induction e using Expr.induction generalizing limit with
  | num m =>
    obtain ⟨ls, es, hterms⟩ :=
      (written_of_writable hs he htext everyNode_num hzero hdeep).terms
    exact ⟨ls, hterms.definitionText hs⟩
  | sym name role =>
    obtain ⟨ls, es, hterms⟩ :=
      (written_of_writable hs he htext everyNode_sym hzero hdeep).terms
    exact ⟨ls, hterms.definitionText hs⟩
  | app op ps ih =>
    by_cases hequation : (Expr.app op ps).isEquation = true
    · obtain ⟨-, hps⟩ := madeOf_app.1 he
      obtain ⟨-, hzeros⟩ := everyNode_app.1 hzero
      have houtsides := (equationsOutside_of_isEquation hequation).1 houtside
      obtain ⟨id, p, q, qs, rfl, rfl⟩ := isEquation_iff.1 hequation
      cases limit with
      | zero => cases hdeep
      | succ limit =>
        have hdeeps := anyDeeperThan_eq_false.1 hdeep
        have htexts := allHaveText_iff.1 htext
        obtain ⟨ls, hall⟩ := DefinitionText.intercalate fun x hx =>
          ih x hx (hps x hx) (htexts x hx) (houtsides x hx) (hzeros x hx) (hdeeps x hx)
        rw [text_equation hps]
        exact ⟨ls, hall.mono (Nat.le_succ _)⟩
    · -- anything else has no equations, so it is written as an expression
      have hfree := (equationsOutside_of_isEquation_eq_false (by simpa using hequation)).1 houtside
      obtain ⟨ls, es, hterms⟩ := (written_of_writable hs he htext hfree hzero hdeep).terms
      exact ⟨ls, hterms.definitionText hs⟩

end Expr

end Reckoner
