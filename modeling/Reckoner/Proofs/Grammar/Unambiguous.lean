import Reckoner.Proofs.Grammar.Completeness

/-!
# The grammar is unambiguous

Two derivations from the same lexemes give the same, whatever the actions make of the phrases. As
with reading, this needs to be said of phrases with any lexemes after them: how much of the lexemes
a phrase of one level takes is determined if what follows is weaker than the level. A repetition is
determined because its items start with a separator, which is too strong to follow the repetition.
-/

namespace Reckoner

open Grammar

/-- The actions make at most one thing of a name, of a call and of a numeral. -/
structure Actions.Functional {α : Type} (A : Actions α) : Prop where
  /-- Names by themselves. -/
  name : ∀ {cs a b}, A.name cs a → A.name cs b → a = b
  /-- Calls. -/
  call : ∀ {cs as a b}, A.call cs as a → A.call cs as b → a = b
  /-- Numerals. -/
  numeral : ∀ {ds fs a b}, A.numeral ds fs a → A.numeral ds fs b → a = b

namespace Grammar

variable {α β : Type} {A : Actions α} {T P : Phrase α} {Q : Phrase β} {k k' : Nat}

/-- A phrase of level `k` can end before the lexemes. -/
def Ends (k : Nat) (ls : List Lexeme) : Prop := ∀ l ∈ ls.head?, l.strength < k

theorem Ends.mono {ls : List Lexeme} (h : Ends k ls) (hk : k ≤ k') : Ends k' ls := by
  intro l hl
  have hlt := h l hl
  omega

theorem ends_cons {l : Lexeme} {ls : List Lexeme} : Ends k (l :: ls) ↔ l.strength < k := by
  simp [Ends]

/-- What a phrase takes of the lexemes and what it means are determined by the lexemes. -/
structure Determined (k : Nat) (P : Phrase α) : Prop where
  /-- The phrase starts with a lexeme that phrases start with. -/
  opens : ∀ ls a, P ls a → Opens ls
  /-- There are no two ways to take the phrase off the front of the same lexemes. -/
  unique : ∀ ls ls' rest rest' a a', P ls a → P ls' a' → ls ++ rest = ls' ++ rest' →
    Ends k rest → Ends k rest' → ls = ls' ∧ a = a'

/-! ## Repetitions -/

/-- The phrases start with a separator: too strong to follow a phrase of level `k'`, but it can
follow one of level `k`. -/
def SeparatedBy (k' k : Nat) (Q : Phrase β) : Prop :=
  ∀ ls b, Q ls b → ∃ l ls', ls = l :: ls' ∧ k' ≤ l.strength ∧ l.strength < k

/-- Where a row of phrases can end, its first phrase can end before the others. -/
theorem SeparatedBy.ends {ls rest : List Lexeme} {bs : List β} (hQ : SeparatedBy k' k Q)
    (hk : k' ≤ k) (h : Many Q ls bs) (hrest : Ends k' rest) : Ends k (ls ++ rest) := by
  cases h with
  | nil => exact hrest.mono hk
  | cons head tail =>
    obtain ⟨l, ls', rfl, -, hlt⟩ := hQ _ _ head
    exact ends_cons.2 hlt

/-- A repetition cannot start where one of its items can follow it. -/
theorem SeparatedBy.not_ends {ls rest : List Lexeme} {b : β} (hQ : SeparatedBy k' k Q)
    (h : Q ls b) : ¬Ends k' (ls ++ rest) := by
  intro hends
  obtain ⟨l, ls', rfl, hle, -⟩ := hQ _ _ h
  have hlt : l.strength < k' := ends_cons.1 hends
  omega

/-- A row of phrases is determined: it ends where no separator follows. -/
theorem Determined.many (hQ : Determined k Q) (hsep : SeparatedBy k' k Q) (hk : k' ≤ k)
    {ls ls' rest rest' : List Lexeme} {bs bs' : List β} (h : Many Q ls bs) (h' : Many Q ls' bs')
    (heq : ls ++ rest = ls' ++ rest') (hrest : Ends k' rest) (hrest' : Ends k' rest') :
    ls = ls' ∧ bs = bs' := by
  induction h generalizing ls' bs' with
  | nil =>
    cases h' with
    | nil => exact ⟨rfl, rfl⟩
    | cons head tail =>
      rw [List.nil_append, List.append_assoc] at heq
      exact absurd (heq ▸ hrest) (hsep.not_ends head)
  | @cons ls₁ ls₂ b bs head tail ih =>
    cases h' with
    | nil =>
      rw [List.nil_append, List.append_assoc] at heq
      exact absurd (heq ▸ hrest') (hsep.not_ends head)
    | @cons ls₁' ls₂' b' bs' head' tail' =>
      rw [List.append_assoc, List.append_assoc] at heq
      obtain ⟨rfl, rfl⟩ := hQ.unique _ _ _ _ _ _ head head' heq (hsep.ends hk tail hrest)
        (hsep.ends hk tail' hrest')
      obtain ⟨rfl, rfl⟩ := ih tail' (List.append_cancel_left heq)
      exact ⟨rfl, rfl⟩

/-- A phrase and the row behind it are determined together. -/
theorem Determined.sequence (hP : Determined k P) (hQ : Determined k Q)
    (hsep : SeparatedBy k' k Q) (hk : k' ≤ k) {p p' q q' rest rest' : List Lexeme} {a a' : α}
    {bs bs' : List β} (h : P p a) (h' : P p' a') (hs : Many Q q bs) (hs' : Many Q q' bs')
    (heq : p ++ q ++ rest = p' ++ q' ++ rest') (hrest : Ends k' rest) (hrest' : Ends k' rest') :
    (p = p' ∧ a = a') ∧ q = q' ∧ bs = bs' := by
  rw [List.append_assoc, List.append_assoc] at heq
  obtain ⟨rfl, rfl⟩ := hP.unique _ _ _ _ _ _ h h' heq (hsep.ends hk hs hrest)
    (hsep.ends hk hs' hrest')
  exact ⟨⟨rfl, rfl⟩, hQ.many hsep hk hs hs' (List.append_cancel_left heq) hrest hrest'⟩

theorem Determined.after (hP : Determined k P) {kind : LexemeKind} (hkind : kind ≠ .closing) :
    Determined k (After kind P) where
  opens ls a h := by
    obtain ⟨c, h⟩ := h
    exact ⟨_, _, rfl, fun d => ⟨by simp, by simp [hkind]⟩⟩
  unique ls ls' rest rest' a a' h h' heq hrest hrest' := by
    obtain ⟨c, h⟩ := h
    obtain ⟨c', h'⟩ := h'
    simp only [List.cons_append, List.cons.injEq, Lexeme.mark.injEq, true_and] at heq
    obtain ⟨rfl, heq⟩ := heq
    obtain ⟨rfl, rfl⟩ := hP.unique _ _ _ _ _ _ h h' heq hrest hrest'
    exact ⟨rfl, rfl⟩

theorem separatedBy_after {kind : LexemeKind} {n : Nat}
    (hstrength : ∀ c, (Lexeme.mark kind c).strength = n) (hk : k' ≤ n) (hn : n < k) :
    SeparatedBy k' k (After kind P) := by
  rintro ls a ⟨c, h⟩
  have hc := hstrength c
  exact ⟨_, _, rfl, by omega, by omega⟩

/-! ## Operators between terms -/

theorem Determined.power (hT : Determined 6 T) : Determined 5 (Power A T) where
  opens ls a h := by
    obtain ⟨base, -⟩ := h
    exact (hT.opens _ _ base).append _
  unique ls ls' rest rest' a a' h h' heq hrest hrest' := by
    obtain ⟨base, exponents⟩ := h
    obtain ⟨base', exponents'⟩ := h'
    obtain ⟨⟨rfl, rfl⟩, rfl, rfl⟩ := hT.sequence (hT.after (by simp))
      (separatedBy_after (fun _ => rfl) le_rfl (by omega)) (by omega) base base' exponents
      exponents' heq hrest hrest'
    exact ⟨rfl, rfl⟩

theorem Determined.divisor (hT : Determined 6 T) : Determined 5 (Divisor A T) where
  opens ls a h := hT.power.opens ls a h.1
  unique ls ls' rest rest' a a' h h' := hT.power.unique ls ls' rest rest' a a' h.1 h'.1

theorem Determined.division (hT : Determined 6 T) : Determined 4 (Division A T) where
  opens ls a h := by
    obtain ⟨numerator, -⟩ := h
    exact (hT.power.opens _ _ numerator).append _
  unique ls ls' rest rest' a a' h h' heq hrest hrest' := by
    obtain ⟨numerator, divisors⟩ := h
    obtain ⟨numerator', divisors'⟩ := h'
    obtain ⟨⟨rfl, rfl⟩, rfl, rfl⟩ := hT.power.sequence (hT.divisor.after (by simp))
      (separatedBy_after (fun _ => rfl) le_rfl (by omega)) (by omega) numerator numerator' divisors
      divisors' heq hrest hrest'
    exact ⟨rfl, rfl⟩

theorem Determined.multiplication (hT : Determined 6 T) (negative : Bool) :
    Determined 3 (Multiplication A T negative) where
  opens ls a h := by
    obtain ⟨first, -⟩ := h
    exact (hT.division.opens _ _ first).append _
  unique ls ls' rest rest' a a' h h' heq hrest hrest' := by
    obtain ⟨first, factors⟩ := h
    obtain ⟨first', factors'⟩ := h'
    obtain ⟨⟨rfl, rfl⟩, rfl, rfl⟩ := hT.division.sequence (hT.division.after (by simp))
      (separatedBy_after (fun _ => rfl) le_rfl (by omega)) (by omega) first first' factors factors'
      heq hrest hrest'
    exact ⟨rfl, rfl⟩

theorem Determined.signed (hT : Determined 6 T) : Determined 3 (Signed A T) where
  opens ls a h := by
    cases h with
    | plus h => exact ((hT.multiplication false).after (by simp)).opens _ _ h
    | minus h => exact ((hT.multiplication true).after (by simp)).opens _ _ h
  unique ls ls' rest rest' a a' h h' heq hrest hrest' := by
    cases h with
    | plus h =>
      cases h' with
      | plus h' =>
        exact ((hT.multiplication false).after (by simp)).unique _ _ _ _ _ _ h h' heq hrest hrest'
      | minus h' =>
        obtain ⟨c, -⟩ := h
        obtain ⟨c', -⟩ := h'
        simp at heq
    | minus h =>
      cases h' with
      | plus h' =>
        obtain ⟨c, -⟩ := h
        obtain ⟨c', -⟩ := h'
        simp at heq
      | minus h' =>
        exact ((hT.multiplication true).after (by simp)).unique _ _ _ _ _ _ h h' heq hrest hrest'

theorem exists_sign {ls : List Lexeme} {a : α} (h : Signed A T ls a) :
    ∃ l ls', ls = l :: ls' ∧ l.strength = 2 ∧ ∃ c, l = .mark .plus c ∨ l = .mark .minus c := by
  cases h with
  | plus h =>
    obtain ⟨c, -⟩ := h
    exact ⟨_, _, rfl, rfl, c, .inl rfl⟩
  | minus h =>
    obtain ⟨c, -⟩ := h
    exact ⟨_, _, rfl, rfl, c, .inr rfl⟩

theorem separatedBy_signed : SeparatedBy 2 3 (Signed A T) := by
  intro ls a h
  obtain ⟨l, ls', rfl, hl, -⟩ := exists_sign h
  exact ⟨l, ls', rfl, by omega, by omega⟩

/-- What starts with a sign does not start without one. -/
theorem not_unsigned {ls ls' rest rest' : List Lexeme} {a : α} (h : Signed A T ls a)
    (hopens : Opens ls') (heq : ls ++ rest = ls' ++ rest') : ¬Unsigned ls' := by
  intro hunsigned
  obtain ⟨l, ls₁, rfl, -, c, hl⟩ := exists_sign h
  obtain ⟨l', ls₂, rfl, -⟩ := hopens
  simp only [List.cons_append, List.cons.injEq] at heq
  obtain ⟨rfl, -⟩ := heq
  obtain ⟨hplus, hminus⟩ := hunsigned l (by simp) c
  rcases hl with hl | hl
  · exact hplus hl
  · exact hminus hl

theorem Determined.leading (hT : Determined 6 T) : Determined 3 (Leading A T) where
  opens ls a h := by
    cases h with
    | signed h => exact hT.signed.opens _ _ h
    | unsigned h _ => exact (hT.multiplication false).opens _ _ h
  unique ls ls' rest rest' a a' h h' heq hrest hrest' := by
    cases h with
    | signed h =>
      cases h' with
      | signed h' => exact hT.signed.unique _ _ _ _ _ _ h h' heq hrest hrest'
      | unsigned h' first' =>
        have hopens := (hT.multiplication false).opens _ _ h'
        exact absurd first' (not_unsigned h hopens heq)
    | unsigned h first =>
      cases h' with
      | signed h' =>
        have hopens := (hT.multiplication false).opens _ _ h
        exact absurd first (not_unsigned h' hopens heq.symm)
      | unsigned h' _ =>
        exact (hT.multiplication false).unique _ _ _ _ _ _ h h' heq hrest hrest'

/-- An expression is determined if its terms are. -/
theorem Determined.expression (hT : Determined 6 T) : Determined 2 (Expression A T) where
  opens ls a h := by
    obtain ⟨first, -⟩ := h
    exact (hT.leading.opens _ _ first).append _
  unique ls ls' rest rest' a a' h h' heq hrest hrest' := by
    obtain ⟨first, terms⟩ := h
    obtain ⟨first', terms'⟩ := h'
    obtain ⟨⟨rfl, rfl⟩, rfl, rfl⟩ := hT.leading.sequence hT.signed separatedBy_signed (by omega)
      first first' terms terms' heq hrest hrest'
    exact ⟨rfl, rfl⟩

/-! ## Terms -/

theorem ends_closing (c : Char) (rest : List Lexeme) : Ends (k + 1) (.mark .closing c :: rest) :=
  ends_cons.2 (Nat.succ_pos k)

/-- Where a phrase can open, no closing parenthesis stands. -/
theorem Opens.append_ne_closing {ls : List Lexeme} (h : Opens ls) (rest rest' : List Lexeme)
    (c : Char) : ls ++ rest ≠ .mark .closing c :: rest' := by
  obtain ⟨l, ls', rfl, hl⟩ := h
  intro heq
  simp only [List.cons_append, List.cons.injEq] at heq
  exact (hl c).2 heq.1

/-- Up to a closing parenthesis, a phrase is determined at any level but the lowest. -/
theorem Determined.closed (hP : Determined (k + 1) P) {ls ls' rest rest' : List Lexeme} {a a' : α}
    {c c' : Char} (h : P ls a) (h' : P ls' a')
    (heq : ls ++ [.mark .closing c] ++ rest = ls' ++ [.mark .closing c'] ++ rest') :
    ls = ls' ∧ a = a' ∧ c = c' := by
  simp only [List.append_assoc, List.singleton_append] at heq
  obtain ⟨rfl, rfl⟩ := hP.unique _ _ _ _ _ _ h h' heq (ends_closing c rest) (ends_closing c' rest')
  have htail := List.append_cancel_left heq
  simp only [List.cons.injEq, Lexeme.mark.injEq, true_and] at htail
  exact ⟨rfl, rfl, htail.1⟩

/-- The parameters between two parentheses are determined, and so is the closing one. -/
theorem Determined.parameters (hT : Determined 6 T) {ls ls' rest rest' : List Lexeme}
    {as as' : List α} {c c' : Char} (h : Parameters A T ls as) (h' : Parameters A T ls' as')
    (heq : ls ++ [.mark .closing c] ++ rest = ls' ++ [.mark .closing c'] ++ rest') :
    ls = ls' ∧ as = as' ∧ c = c' := by
  have hopens : ∀ {ls₁ ls₂ : List Lexeme} {a : α}, Expression A T ls₁ a → Opens (ls₁ ++ ls₂) :=
    fun h => (hT.expression.opens _ _ h).append _
  simp only [List.append_assoc, List.singleton_append] at heq
  cases h with
  | none =>
    cases h' with
    | none =>
      simp only [List.nil_append, List.cons.injEq, Lexeme.mark.injEq, true_and] at heq
      exact ⟨rfl, rfl, heq.1⟩
    | some first' others' =>
      rw [List.nil_append] at heq
      exact absurd heq.symm ((hopens first').append_ne_closing _ _ _)
  | some first others =>
    cases h' with
    | none =>
      rw [List.nil_append] at heq
      exact absurd heq ((hopens first).append_ne_closing _ _ _)
    | some first' others' =>
      obtain ⟨⟨rfl, rfl⟩, rfl, rfl⟩ := hT.expression.sequence (hT.expression.after (by simp))
        (separatedBy_after (fun _ => rfl) le_rfl (by omega)) (by omega) first first' others others'
        heq (ends_closing c rest) (ends_closing c' rest')
      have htail := List.append_cancel_left heq
      simp only [List.cons.injEq, Lexeme.mark.injEq, true_and] at htail
      exact ⟨rfl, rfl, htail.1⟩

/-- An opening parenthesis cannot follow a term. -/
theorem not_ends_opening (c : Char) (rest : List Lexeme) :
    ¬Ends 6 (.mark .opening c :: rest) := by
  intro h
  have hlt := ends_cons.1 h
  simp [Lexeme.strength] at hlt

/-- A term is determined by its first lexeme and the terms inside. -/
theorem Determined.term (hA : A.Functional) (hT : Determined 6 T) : Determined 6 (Term A T) where
  opens ls a h := by
    cases h with
    | negative => exact ⟨_, _, rfl, by simp⟩
    | name => exact ⟨_, _, rfl, by simp⟩
    | call => exact ⟨_, _, rfl, by simp⟩
    | numeral => exact ⟨_, _, rfl, by simp⟩
    | group => exact ⟨_, _, rfl, by simp⟩
  unique ls ls' rest rest' a a' h h' heq hrest hrest' := by
    -- the first lexeme tells the rule, but for a name: a parenthesis after it makes it a call
    cases h with
    | negative c h =>
      cases h' with
      | negative c' h' =>
        simp only [List.cons_append, List.cons.injEq, Lexeme.mark.injEq, true_and] at heq
        obtain ⟨rfl, heq⟩ := heq
        obtain ⟨rfl, rfl⟩ := hT.unique _ _ _ _ _ _ h h' heq hrest hrest'
        exact ⟨rfl, rfl⟩
      | _ => simp at heq
    | name h =>
      cases h' with
      | name h' =>
        simp only [List.cons_append, List.cons.injEq, Lexeme.name.injEq] at heq
        obtain ⟨rfl, -⟩ := heq
        exact ⟨rfl, hA.name h h'⟩
      | call c c' h' value' =>
        simp only [List.cons_append, List.nil_append, List.cons.injEq] at heq
        rw [heq.2] at hrest
        exact absurd hrest (not_ends_opening _ _)
      | _ => simp at heq
    | call c c' h value =>
      cases h' with
      | name h' =>
        simp only [List.cons_append, List.nil_append, List.cons.injEq] at heq
        rw [← heq.2] at hrest'
        exact absurd hrest' (not_ends_opening _ _)
      | call d d' h' value' =>
        simp only [List.cons_append, List.cons.injEq, Lexeme.name.injEq, Lexeme.mark.injEq,
          true_and] at heq
        obtain ⟨rfl, rfl, heq⟩ := heq
        obtain ⟨rfl, rfl, rfl⟩ := hT.parameters h h' heq
        exact ⟨rfl, hA.call value value'⟩
      | _ => simp at heq
    | numeral h =>
      cases h' with
      | numeral h' =>
        simp only [List.cons_append, List.cons.injEq, Lexeme.numeral.injEq] at heq
        obtain ⟨⟨rfl, rfl⟩, -⟩ := heq
        exact ⟨rfl, hA.numeral h h'⟩
      | _ => simp at heq
    | group c c' h =>
      cases h' with
      | group d d' h' =>
        simp only [List.cons_append, List.cons.injEq, Lexeme.mark.injEq, true_and] at heq
        obtain ⟨rfl, heq⟩ := heq
        obtain ⟨rfl, rfl, rfl⟩ := hT.expression.closed h h' heq
        exact ⟨rfl, rfl⟩
      | _ => simp at heq

/-- Terms of any depth are determined. The induction is on the depth. -/
theorem determined_termAt (hA : A.Functional) (depth : Nat) : Determined 6 (termAt A depth) := by
  induction depth with
  | zero => exact ⟨fun _ _ h => h.elim, fun _ _ _ _ _ _ h => h.elim⟩
  | succ depth ih => exact ih.term hA

/-! ## Whole texts -/

theorem Determined.definition (hT : Determined 6 T) : Determined 1 (Definition A T) where
  opens ls a h := by
    obtain ⟨first, -⟩ := h
    exact (hT.expression.opens _ _ first).append _
  unique ls ls' rest rest' a a' h h' heq hrest hrest' := by
    obtain ⟨first, values⟩ := h
    obtain ⟨first', values'⟩ := h'
    obtain ⟨⟨rfl, rfl⟩, rfl, rfl⟩ := hT.expression.sequence (hT.expression.after (by simp))
      (separatedBy_after (fun _ => rfl) le_rfl (by omega)) (by omega) first first' values values'
      heq hrest hrest'
    exact ⟨rfl, rfl⟩

theorem Determined.eq_of_all (hP : Determined k P) {ls : List Lexeme} {a a' : α} (h : P ls a)
    (h' : P ls a') : a = a' :=
  (hP.unique ls ls [] [] a a' h h' rfl (by simp [Ends]) (by simp [Ends])).2

/-- All derivations from the same lexemes give the same, however deep they nest. -/
theorem definition_unique (hA : A.Functional) {ls : List Lexeme} {m n : Nat} {a b : α}
    (h : Definition A (termAt A m) ls a) (h' : Definition A (termAt A n) ls b) : a = b := by
  have hm := Definition.mono (termAt_mono (Nat.le_max_left m n)) ls a h
  have hn := Definition.mono (termAt_mono (Nat.le_max_right m n)) ls b h'
  exact (determined_termAt hA (max m n)).definition.eq_of_all hm hn

/-- An expression has one meaning, in however many ways its lexemes could be derived. -/
theorem expression_unique (hA : A.Functional) {ls : List Lexeme} {m n : Nat} {a b : α}
    (h : Expression A (termAt A m) ls a) (h' : Expression A (termAt A n) ls b) : a = b := by
  have hm := Expression.mono (termAt_mono (Nat.le_max_left m n)) ls a h
  have hn := Expression.mono (termAt_mono (Nat.le_max_right m n)) ls b h'
  exact (determined_termAt hA (max m n)).expression.eq_of_all hm hn

end Grammar

end Reckoner
