import Reckoner.Proofs.Grammar.Completeness

/-!
# Whatever is read is derived

A reader takes a phrase of the grammar off the front of the tokens. The readers of the repetitions
all go through `series`, so what there is to say about them is said once, and a reader of the
grammar then adds only what its rule makes of the parts.
-/

namespace Reckoner

open Grammar

/-- What the reader takes off the front of the tokens is a phrase with the meaning that it gives. -/
def Derives {α : Type} (item : ReaderOf α) (P : Phrase α) : Prop :=
  ∀ ts a r, item ts = .ok (a, r) → ∃ taken, ts = taken ++ r.1 ∧ P (taken.map Token.lexeme) a

section Readers

variable {α β : Type} {P : Phrase α} {Q : Phrase β}

theorem Derives.mono {P' : Phrase α} {item : ReaderOf α} (h : Derives item P)
    (hP : ∀ ls a, P ls a → P' ls a) : Derives item P' := by
  intro ts a r hread
  obtain ⟨taken, hts, htaken⟩ := h ts a r hread
  exact ⟨taken, hts, hP _ _ htaken⟩

theorem Derives.map {item : ReaderOf α} (h : Derives item P) {f : α → β}
    (hf : ∀ ls a, P ls a → Q ls (f a)) :
    Derives (fun ts => do let (a, r) ← item ts; return (f a, r)) Q := by
  intro ts b r hread
  obtain ⟨⟨a, r'⟩, ha, hread⟩ := except_bind_eq_ok.1 hread
  cases hread
  obtain ⟨taken, hts, htaken⟩ := h ts a _ ha
  exact ⟨taken, hts, hf _ _ htaken⟩

/-- After its first token a reader takes a phrase as it does anywhere else. -/
theorem Derives.afterToken {item : ReaderOf α} (h : Derives item P) {t : Token} {rest : List Token}
    {a : α} {r : Rest (t :: rest).length} (hread : afterToken item t rest = .ok (a, r)) :
    ∃ taken, rest = taken ++ r.1 ∧ P (taken.map Token.lexeme) a := by
  obtain ⟨-, -, hread⟩ := except_bind_eq_ok.1 hread
  obtain ⟨⟨a', r'⟩, ha, hread⟩ := except_bind_eq_ok.1 hread
  cases hread
  exact h rest a _ ha

/-- A separator and what is read after it make a phrase. -/
def DerivesAfter (separator : Token → Option (ReaderOf β)) (Q : Phrase β) : Prop :=
  ∀ t item, separator t = some item → Derives item fun ls b => Q (t.lexeme :: ls) b

theorem derivesAfter_onKind (kind : LexemeKind) {item : Token → ReaderOf β}
    (h : ∀ t, Derives (item t) Q) :
    DerivesAfter (fun t => onKind kind (item t) t) (After kind Q) := by
  intro t item' hitem
  obtain ⟨lexeme, start⟩ := t
  simp only [onKind] at hitem
  split at hitem
  · next k c =>
    split at hitem
    · next hk =>
      cases hitem
      subst hk
      exact (h _).mono fun ls b hb => .intro c hb
    · cases hitem
  · cases hitem

/-- A repetition takes a row of phrases. The induction is on its rounds. -/
theorem DerivesAfter.series {separator : Token → Option (ReaderOf β)}
    (hsep : DerivesAfter separator Q) {n : Nat} (ts : List Token) {hn : ts.length < n}
    {bs : List β} {r : Rest n} (hread : series separator n ts hn = .ok (bs, r)) :
    ∃ taken, ts = taken ++ r.1 ∧ Many Q (taken.map Token.lexeme) bs := by
  induction ts, hn using Reckoner.series.induct separator n generalizing bs r with
  | case1 =>
    rw [Reckoner.series] at hread
    cases hread
    exact ⟨[], rfl, .nil⟩
  | case2 t rest _ hnone =>
    rw [Reckoner.series, hnone] at hread
    cases hread
    exact ⟨[], rfl, .nil⟩
  | case3 t rest _ item hitem _ ih =>
    rw [Reckoner.series, hitem] at hread
    obtain ⟨-, -, hread⟩ := except_bind_eq_ok.1 hread
    obtain ⟨⟨b, r'⟩, hb, hread⟩ := except_bind_eq_ok.1 hread
    obtain ⟨⟨bs', r''⟩, hbs, hread⟩ := except_bind_eq_ok.1 hread
    cases hread
    obtain ⟨taken, hrest, hQ⟩ := hsep t item hitem rest b r' hb
    obtain ⟨taken', hrest', hmany⟩ := ih r' hbs
    refine ⟨(t :: taken) ++ taken', ?_, ?_⟩
    · rw [hrest, hrest', List.append_assoc, List.cons_append]
    · rw [List.map_append, List.map_cons]
      exact .cons hQ hmany

/-- An item and a series after it. -/
def Followed (P : Phrase α) (Q : Phrase β) : Phrase (α × List β) := fun ls p =>
  ∃ ls₁ ls₂, ls = ls₁ ++ ls₂ ∧ P ls₁ p.1 ∧ Many Q ls₂ p.2

/-- An item and a repetition take a phrase with a row of phrases behind it. -/
theorem Derives.itemAndSeries {item : ReaderOf α} {separator : Token → Option (ReaderOf β)}
    (hitem : Derives item P) (hsep : DerivesAfter separator Q) :
    Derives (itemAndSeries item separator) (Followed P Q) := by
  intro ts p r hread
  obtain ⟨⟨a, r'⟩, ha, hread⟩ := except_bind_eq_ok.1 hread
  obtain ⟨⟨bs, r''⟩, hbs, hread⟩ := except_bind_eq_ok.1 hread
  cases hread
  obtain ⟨taken, hts, hP⟩ := hitem ts a r' ha
  obtain ⟨taken', hr', hQ⟩ := hsep.series r'.1 hbs
  refine ⟨taken ++ taken', hts.trans ?_, _, _, List.map_append, hP, hQ⟩
  rw [hr', List.append_assoc]

end Readers

namespace Scope

variable {s : Scope}

section Terms

variable {term : Reader} {T : Phrase Expr}

/-! ### Operators between terms -/

theorem derives_power (hT : Derives term T) : Derives (s.power term) (Power s.actions T) := by
  refine (hT.itemAndSeries (derivesAfter_onKind .caret fun _ => hT)).map
    (f := fun p => s.chain .power p.1 p.2) ?_
  rintro ls p ⟨ls₁, ls₂, rfl, base, exponents⟩
  exact .intro base exponents

theorem derives_divisor (hT : Derives term T) (position : Nat) :
    Derives (s.divisor term position) (Divisor s.actions T) := by
  intro ts e r hread
  obtain ⟨⟨e', r'⟩, hpower, hread⟩ := except_bind_eq_ok.1 hread
  simp only at hread
  split at hread
  · cases hread
  · next hzero =>
    cases hread
    obtain ⟨taken, hts, htaken⟩ := derives_power hT ts e r hpower
    exact ⟨taken, hts, htaken, Bool.eq_false_iff.2 hzero⟩

theorem derives_division (hT : Derives term T) :
    Derives (s.division term) (Division s.actions T) := by
  refine ((derives_power hT).itemAndSeries
    (derivesAfter_onKind .slash fun t => derives_divisor hT t.start)).map
    (f := fun p => s.quotient p.1 p.2) ?_
  rintro ls p ⟨ls₁, ls₂, rfl, numerator, divisors⟩
  exact .intro numerator divisors

theorem derives_multiplication (hT : Derives term T) (negative : Bool) :
    Derives (s.multiplication term negative) (Multiplication s.actions T negative) := by
  refine ((derives_division hT).itemAndSeries
    (derivesAfter_onKind .star fun _ => derives_division hT)).map
    (f := fun p =>
      s.join .multiply (if negative then negateFactors (p.1 :: p.2) else p.1 :: p.2)) ?_
  rintro ls p ⟨ls₁, ls₂, rfl, first, factors⟩
  exact .intro first factors

theorem derivesAfter_signedMultiplication (hT : Derives term T) :
    DerivesAfter (s.signedMultiplication term) (Signed s.actions T) := by
  intro t item hitem
  obtain ⟨lexeme, start⟩ := t
  simp only [signedMultiplication] at hitem
  split at hitem
  · next c =>
    cases hitem
    exact (derives_multiplication hT false).mono fun _ _ h => .plus (.intro c h)
  · next c =>
    cases hitem
    exact (derives_multiplication hT true).mono fun _ _ h => .minus (.intro c h)
  · cases hitem

theorem derives_leadingMultiplication (hT : Derives term T) :
    Derives (s.leadingMultiplication term) (Leading s.actions T) := by
  intro ts e r hread
  cases ts with
  | nil =>
    obtain ⟨taken, hts, htaken⟩ := derives_multiplication hT false [] e r hread
    obtain ⟨rfl, -⟩ := List.append_eq_nil_iff.1 hts.symm
    exact ⟨[], hts, .unsigned htaken (by simp [Unsigned])⟩
  | cons t rest =>
    simp only [leadingMultiplication] at hread
    cases hsign : s.signedMultiplication term t with
    | some item =>
      rw [hsign] at hread
      obtain ⟨taken, hrest, htaken⟩ :=
        (derivesAfter_signedMultiplication hT t item hsign).afterToken hread
      exact ⟨t :: taken, congrArg (t :: ·) hrest, .signed htaken⟩
    | none =>
      rw [hsign] at hread
      obtain ⟨taken, hts, htaken⟩ := derives_multiplication hT false _ e r hread
      -- no sign was found, so the first lexeme that is taken is none
      refine ⟨taken, hts, .unsigned htaken fun l hl c => ?_⟩
      cases taken with
      | nil => simp at hl
      | cons t' taken =>
        obtain ⟨rfl, -⟩ := List.cons.inj hts
        obtain rfl : t.lexeme = l := by simpa using hl
        constructor <;> intro heq <;> simp [signedMultiplication, heq] at hsign

/-- What is read as an expression is one, if what is read as a term is one. -/
theorem derives_expression (hT : Derives term T) :
    Derives (s.expression term) (Expression s.actions T) := by
  refine ((derives_leadingMultiplication hT).itemAndSeries
    (derivesAfter_signedMultiplication hT)).map (f := fun p => s.join .add (p.1 :: p.2)) ?_
  rintro ls p ⟨ls₁, ls₂, rfl, first, terms⟩
  exact .intro first terms

/-! ### Terms -/

theorem exists_closing {missing : Option Token → SyntaxError} {n : Nat} {r r' : Rest n}
    (h : closing missing r = .ok r') :
    ∃ t c, r.1 = t :: r'.1 ∧ t.lexeme = .mark .closing c := by
  obtain ⟨ts, hts⟩ := r
  cases ts with
  | nil => cases h
  | cons t rest =>
    simp only [closing] at h
    split at h
    · next c hc =>
      obtain ⟨-, -, h⟩ := except_bind_eq_ok.1 h
      cases h
      exact ⟨t, c, rfl, hc⟩
    · cases h

/-- A phrase with a closing parenthesis after it. -/
def Closed {α : Type} (P : Phrase α) : Phrase α := fun ls a =>
  ∃ ls' c, ls = ls' ++ [.mark .closing c] ∧ P ls' a

variable {item : Reader} {P : Phrase Expr}

theorem derives_parenthesized (h : Derives item P) (position : Nat) :
    Derives (parenthesized item position) (Closed P) := by
  intro ts e r hread
  obtain ⟨⟨e', r'⟩, he, hread⟩ := except_bind_eq_ok.1 hread
  obtain ⟨r'', hclose, hread⟩ := except_bind_eq_ok.1 hread
  cases hread
  obtain ⟨taken, hts, htaken⟩ := h ts e r' he
  obtain ⟨t, c, hr', ht⟩ := exists_closing hclose
  refine ⟨taken ++ [t], hts.trans ?_, _, c, ?_, htaken⟩
  · rw [hr', List.append_assoc, List.singleton_append]
  · rw [List.map_append, List.map_singleton, ht]

/-- Parameters are read up to the closing parenthesis that belongs to them. -/
theorem exists_parameters (h : Derives item (Expression s.actions T)) {stop : Nat}
    {ts : List Token} {es : List Expr} {r : Rest (ts.length + 1)}
    (hread : parameters item stop ts = .ok (es, r)) :
    ∃ taken, ts = taken ++ r.1 ∧ Closed (Parameters s.actions T) (taken.map Token.lexeme) es := by
  simp only [parameters] at hread
  split at hread
  · obtain ⟨r', hclose, hread⟩ := except_bind_eq_ok.1 hread
    cases hread
    obtain ⟨t, c, hts, ht⟩ := exists_closing hclose
    exact ⟨[t], hts, [], c, by rw [List.map_singleton, ht]; rfl, .none⟩
  · obtain ⟨⟨⟨e, es'⟩, r'⟩, hes, hread⟩ := except_bind_eq_ok.1 hread
    obtain ⟨r'', hclose, hread⟩ := except_bind_eq_ok.1 hread
    cases hread
    obtain ⟨taken, hts, ls₁, ls₂, hls, first, others⟩ :=
      h.itemAndSeries (derivesAfter_onKind .comma fun _ => h) ts _ r' hes
    obtain ⟨t, c, hr', ht⟩ := exists_closing hclose
    refine ⟨taken ++ [t], hts.trans ?_, ls₁ ++ ls₂, c, ?_, .some first others⟩
    · rw [hr', List.append_assoc, List.singleton_append]
      rfl
    · rw [List.map_append, List.map_singleton, ht, hls]

/-- What is read at a name is the name by itself, or its call. -/
theorem exists_named (h : Derives item (Expression s.actions T)) {stop position : Nat}
    {cs : List Char} {ts : List Token} {e : Expr} {r : Rest (ts.length + 1)}
    (hread : s.named item stop (String.ofList cs) position ts = .ok (e, r)) :
    ∃ taken, ts = taken ++ r.1 ∧ Term s.actions T (.name cs :: taken.map Token.lexeme) e := by
  cases ts with
  | nil =>
    obtain ⟨e', he', hread⟩ := except_bind_eq_ok.1 hread
    cases hread
    exact ⟨[], rfl, .name (symbol_position he')⟩
  | cons t rest =>
    simp only [named] at hread
    obtain ⟨e', he', hread⟩ := except_bind_eq_ok.1 hread
    split at hread
    · next name op hopen =>
      obtain ⟨-, -, hread⟩ := except_bind_eq_ok.1 hread
      obtain ⟨⟨es, r'⟩, hes, hread⟩ := except_bind_eq_ok.1 hread
      cases hread
      obtain ⟨taken, hrest, ls, c', hls, hparams⟩ := exists_parameters h hes
      refine ⟨t :: taken, congrArg (t :: ·) hrest, ?_⟩
      rw [List.map_cons, hopen, hls]
      exact .call _ c' hparams ⟨name, op, symbol_position he', rfl⟩
    · cases hread
    · cases hread
      exact ⟨[], rfl, .name (symbol_position he')⟩

/-- Only an error says where the numeral stands. -/
theorem readNumeral_position {position : Nat} {ds : List Char} {fs : Option (List Char)}
    {n : Number} (h : readNumeral position ds fs = .ok n) (position' : Nat) :
    readNumeral position' ds fs = .ok n := by
  unfold readNumeral at h ⊢
  cases fs with
  | some fs => exact h
  | none =>
    simp only at h ⊢
    split_ifs at h ⊢
    exact h

/-- What is read as a term is one, of the depth that the reader goes to. -/
theorem derives_term (s : Scope) (stop depth : Nat) :
    Derives (s.term stop depth) (termAt s.actions depth) := by
  induction depth with
  | zero =>
    intro ts e r hread
    cases hread
  | succ depth ih =>
    have hexpression := derives_expression (s := s) ih
    intro ts e r hread
    cases ts with
    | nil => cases hread
    | cons t rest =>
      obtain ⟨lexeme, start⟩ := t
      simp only [term, termWith] at hread
      split at hread
      · next c =>
        obtain ⟨⟨e', r'⟩, he', hread⟩ := except_bind_eq_ok.1 hread
        cases hread
        obtain ⟨taken, hrest, htaken⟩ := ih.afterToken he'
        exact ⟨⟨_, start⟩ :: taken, congrArg (_ :: ·) hrest, .negative c htaken⟩
      · next cs =>
        obtain ⟨-, -, hread⟩ := except_bind_eq_ok.1 hread
        obtain ⟨taken, hrest, htaken⟩ := exists_named hexpression hread
        exact ⟨⟨_, start⟩ :: taken, congrArg (_ :: ·) hrest, htaken⟩
      · next ds fs =>
        obtain ⟨-, -, hread⟩ := except_bind_eq_ok.1 hread
        obtain ⟨n, hn, hread⟩ := except_bind_eq_ok.1 hread
        cases hread
        exact ⟨[⟨_, start⟩], rfl, .numeral ⟨n, readNumeral_position hn, rfl⟩⟩
      · next c =>
        obtain ⟨taken, hrest, ls, c', hls, htaken⟩ :=
          (derives_parenthesized hexpression start).afterToken hread
        refine ⟨⟨_, start⟩ :: taken, congrArg (_ :: ·) hrest, ?_⟩
        rw [List.map_cons, hls]
        exact .group c c' htaken
      · cases hread

/-! ### Whole texts -/

/-- What is read as a chain of definitions is one. -/
theorem derives_definition (hT : Derives term T) :
    Derives (s.definition term) (Definition s.actions T) := by
  refine ((derives_expression hT).itemAndSeries
    (derivesAfter_onKind .equals fun _ => derives_expression hT)).map
    (f := fun p => s.chain (.define s.store) p.1 p.2) ?_
  rintro ls p ⟨ls₁, ls₂, rfl, first, values⟩
  exact .intro first values

end Terms

/-- What a text is read to is given by a derivation of its lexemes. -/
theorem definition_of_readWithin {depth : Nat} {text : List Char} {e : Expr}
    (h : s.readWithin depth text = .ok e) :
    Definition s.actions (termAt s.actions depth) (lexemes text) e := by
  obtain ⟨-, -, h⟩ := except_bind_eq_ok.1 h
  obtain ⟨⟨e', r⟩, he', h⟩ := except_bind_eq_ok.1 h
  obtain ⟨taken, htokens, htaken⟩ := derives_definition (derives_term s text.length depth) _ _ _ he'
  obtain ⟨rest, hrest⟩ := r
  cases rest with
  | cons t rest => cases h
  | nil =>
    cases h
    rw [List.append_nil] at htokens
    rw [lexemes, htokens]
    exact htaken

end Scope

end Reckoner
