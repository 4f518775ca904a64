import Reckoner.Proofs.Grammar.Positions

/-!
# Moving on in a text

Tokens start one behind the other, so a reader that takes tokens off the front moves on in the text.
Every reader that returns has taken at least one token, and every round of a repetition at least the
separator and one token of what stands behind it.
-/

namespace Reckoner

/-! ## Where tokens start -/

/-- Where the next token starts, or where the text ends. -/
def cursor (text : List Char) (ts : List Token) : Nat := ts.head?.elim text.length Token.start

theorem start_of_mem_tokensFrom (p : Nat) (cs : List Char) :
    ∀ t ∈ tokensFrom p cs, p ≤ t.start ∧ t.start < p + cs.length := by
  fun_induction tokensFrom p cs with
  | case1 p => simp
  | case2 p c cs hspace ih =>
    intro t ht
    obtain ⟨hle, hlt⟩ := ih t ht
    rw [List.length_cons]
    omega
  | case3 p c cs hspace lexeme more ih =>
    refine List.forall_mem_cons.2 ⟨?_, fun t ht => ?_⟩
    · simp
    · obtain ⟨hle, hlt⟩ := ih t ht
      rw [List.length_drop] at hlt
      rw [List.length_cons]
      omega

/-- Each token starts behind the ones before it. -/
theorem pairwise_start_tokensFrom (p : Nat) (cs : List Char) :
    (tokensFrom p cs).Pairwise (·.start < ·.start) := by
  fun_induction tokensFrom p cs with
  | case1 p => exact .nil
  | case2 p c cs hspace ih => exact ih
  | case3 p c cs hspace lexeme more ih =>
    refine List.pairwise_cons.2 ⟨fun t ht => ?_, ih⟩
    obtain ⟨hle, -⟩ := start_of_mem_tokensFrom _ _ t ht
    show p < t.start
    omega

theorem cursor_lt_cursor {text : List Char} {t : Token} {rest : List Token}
    (h : t :: rest <:+ tokens text) : cursor text (t :: rest) < cursor text rest := by
  cases rest with
  | nil =>
    obtain ⟨-, hlt⟩ := start_of_mem_tokensFrom 0 text t (h.subset List.mem_cons_self)
    rwa [Nat.zero_add] at hlt
  | cons t' rest =>
    have hpairwise := (pairwise_start_tokensFrom 0 text).sublist h.sublist
    exact (List.pairwise_cons.1 hpairwise).1 t' List.mem_cons_self

/-- Every token that is taken moves the cursor on. -/
theorem cursor_add_le {text : List Char} {ts r : List Token} (hts : ts <:+ tokens text)
    (hr : r <:+ ts) : cursor text ts + (ts.length - r.length) ≤ cursor text r := by
  induction ts with
  | nil =>
    obtain rfl := List.suffix_nil.1 hr
    simp
  | cons t ts ih =>
    rcases List.suffix_cons_iff.1 hr with rfl | hr
    · simp
    · have hmore := ih ((List.suffix_cons t ts).trans hts) hr
      have hlt := cursor_lt_cursor hts
      have hle := hr.length_le
      rw [List.length_cons]
      omega

/-! ## Readers that return -/

/-- A reader that is called where the first tokens are left returns where the second ones are left.
The reader of a name is called on its token, and that of parameters on the opening parenthesis. -/
inductive Scope.Returns (s : Scope) (stop depth : Nat) : List Token → List Token → Prop where
  | term {ts e r} (h : s.term stop depth ts = .ok (e, r)) : Returns s stop depth ts r.1
  | power {ts e r} (h : s.power (s.term stop depth) ts = .ok (e, r)) : Returns s stop depth ts r.1
  | division {ts e r} (h : s.division (s.term stop depth) ts = .ok (e, r)) :
      Returns s stop depth ts r.1
  | multiplication {negative ts e r}
      (h : s.multiplication (s.term stop depth) negative ts = .ok (e, r)) :
      Returns s stop depth ts r.1
  | expression {ts e r} (h : s.expression (s.term stop depth) ts = .ok (e, r)) :
      Returns s stop depth ts r.1
  | definition {ts e r} (h : s.definition (s.term stop depth) ts = .ok (e, r)) :
      Returns s stop depth ts r.1
  | name {cs start rest e r}
      (h : s.named (s.expression (s.term stop depth)) stop (String.ofList cs) start rest =
        .ok (e, r)) : Returns s stop depth (⟨.name cs, start⟩ :: rest) r.1
  | numeral {ds fs start rest n} (h : readNumeral start ds fs = .ok n) :
      Returns s stop depth (⟨.numeral ds fs, start⟩ :: rest) rest
  | parameters {c start rest es r}
      (h : parameters (s.expression (s.term stop depth)) stop rest = .ok (es, r)) :
      Returns s stop depth (⟨.mark .opening c, start⟩ :: rest) r.1

theorem Derives.suffix_of_ok {α : Type} {item : ReaderOf α} {P : Phrase α} (h : Derives item P)
    {ts : List Token} {a : α} {r : Rest ts.length} (hread : item ts = .ok (a, r)) :
    r.1 <:+ ts ∧ r.1.length < ts.length := by
  obtain ⟨taken, hts, -⟩ := h ts a r hread
  exact ⟨⟨taken, hts.symm⟩, r.2⟩

theorem Scope.Returns.suffix {s : Scope} {stop depth : Nat} {ts r : List Token}
    (h : s.Returns stop depth ts r) : r <:+ ts ∧ r.length < ts.length := by
  have hterm := derives_term s stop depth
  have hexpression := derives_expression (s := s) hterm
  cases h with
  | term h => exact hterm.suffix_of_ok h
  | power h => exact (derives_power hterm).suffix_of_ok h
  | division h => exact (derives_division hterm).suffix_of_ok h
  | multiplication h => exact (derives_multiplication hterm _).suffix_of_ok h
  | expression h => exact hexpression.suffix_of_ok h
  | definition h => exact (derives_definition hterm).suffix_of_ok h
  | @name cs start rest e r h =>
    obtain ⟨taken, hrest, -⟩ := exists_named hexpression h
    exact ⟨⟨_ :: taken, congrArg (_ :: ·) hrest.symm⟩, r.2⟩
  | numeral h => exact ⟨List.suffix_cons _ _, Nat.lt_succ_self _⟩
  | @parameters c start rest es r h =>
    obtain ⟨taken, hrest, -⟩ := exists_parameters hexpression h
    exact ⟨⟨_ :: taken, congrArg (_ :: ·) hrest.symm⟩, r.2⟩

/-! ## Rounds of repetitions -/

/-- After so many rounds of a repetition the second tokens are left of the first ones. -/
inductive Rounds {α : Type} (separator : Token → Option (ReaderOf α)) :
    Nat → List Token → List Token → Prop where
  | none (ts : List Token) : Rounds separator 0 ts ts
  | more {t rest item a r k left} (hseparator : separator t = some item)
      (hready : ready rest = .ok ()) (hitem : item rest = .ok (a, r))
      (h : Rounds separator k r.1 left) : Rounds separator (k + 1) (t :: rest) left

/-- The separators of the repetitions, with the readers behind them. -/
inductive Scope.Repeats (s : Scope) (term : Reader) : (Token → Option Reader) → Prop where
  | exponents : Repeats s term (onKind .caret term)
  | divisors : Repeats s term fun t => onKind .slash (s.divisor term t.start) t
  | factors : Repeats s term (onKind .star (s.division term))
  | summands : Repeats s term (s.signedMultiplication term)
  | parameters : Repeats s term (onKind .comma (s.expression term))
  | definitions : Repeats s term (onKind .equals (s.expression term))

theorem Scope.Repeats.derivesAfter {s : Scope} {term : Reader} {T : Phrase Expr}
    (hT : Derives term T) {separator : Token → Option Reader} (h : s.Repeats term separator) :
    ∃ Q, DerivesAfter separator Q := by
  cases h with
  | exponents => exact ⟨_, derivesAfter_onKind .caret fun _ => hT⟩
  | divisors => exact ⟨_, derivesAfter_onKind .slash fun t => derives_divisor hT t.start⟩
  | factors => exact ⟨_, derivesAfter_onKind .star fun _ => derives_division (s := s) hT⟩
  | summands => exact ⟨_, derivesAfter_signedMultiplication hT⟩
  | parameters => exact ⟨_, derivesAfter_onKind .comma fun _ => derives_expression (s := s) hT⟩
  | definitions => exact ⟨_, derivesAfter_onKind .equals fun _ => derives_expression (s := s) hT⟩

section Rounds

variable {α : Type} {separator : Token → Option (ReaderOf α)}

/-- A repetition that ends has gone through one round for each of its items. -/
theorem rounds_of_series {n : Nat} (ts : List Token) {hn : ts.length < n} {as : List α}
    {r : Rest n} (h : series separator n ts hn = .ok (as, r)) :
    Rounds separator as.length ts r.1 := by
  induction ts, hn using series.induct separator n generalizing as r with
  | case1 =>
    rw [series] at h
    cases h
    exact .none []
  | case2 t rest _ hnone =>
    rw [series, hnone] at h
    cases h
    exact .none _
  | case3 t rest _ item hitem _ ih =>
    rw [series, hitem] at h
    obtain ⟨⟨⟩, hready, h⟩ := except_bind_eq_ok.1 h
    obtain ⟨⟨a, r'⟩, ha, h⟩ := except_bind_eq_ok.1 h
    obtain ⟨⟨as', r''⟩, has, h⟩ := except_bind_eq_ok.1 h
    cases h
    exact .more hitem hready ha (ih r' has)

/-- A repetition that fails has gone through some rounds, and the next one fails. -/
theorem rounds_of_series_error {n : Nat} (ts : List Token) {hn : ts.length < n} {e : SyntaxError}
    (h : series separator n ts hn = .error e) :
    ∃ k t rest item, Rounds separator k ts (t :: rest) ∧ separator t = some item ∧
      afterToken item t rest = .error e := by
  induction ts, hn using series.induct separator n with
  | case1 =>
    rw [series] at h
    cases h
  | case2 t rest _ hnone =>
    rw [series, hnone] at h
    cases h
  | case3 t rest _ item hitem _ ih =>
    rw [series, hitem] at h
    rcases except_bind_eq_error.1 h with hfail | ⟨⟨⟩, hready, h⟩
    · exact ⟨0, t, rest, item, .none _, hitem, except_bind_eq_error.2 (.inl hfail)⟩
    rcases except_bind_eq_error.1 h with hfail | ⟨⟨a, r'⟩, ha, h⟩
    · exact ⟨0, t, rest, item, .none _, hitem, except_bind_eq_error.2
        (.inr ⟨(), hready, except_bind_eq_error.2 (.inl hfail)⟩)⟩
    rcases except_bind_eq_error.1 h with hfail | ⟨⟨as, r''⟩, -, h⟩
    · obtain ⟨k, t', rest', item', hrounds, hitem', hread⟩ := ih r' hfail
      exact ⟨k + 1, t', rest', item', .more hitem hready ha hrounds, hitem', hread⟩
    · cases h

/-- In every round at least the separator and one token behind it are taken. -/
theorem Rounds.suffix {Q : Phrase α} (hsep : DerivesAfter separator Q) {k : Nat}
    {ts left : List Token} (h : Rounds separator k ts left) :
    left <:+ ts ∧ left.length + 2 * k ≤ ts.length := by
  induction h with
  | none ts => exact ⟨List.suffix_refl ts, Nat.le_refl _⟩
  | @more t rest item a r k left hseparator hready hitem h ih =>
    obtain ⟨hleft, hlength⟩ := ih
    obtain ⟨hr, hlt⟩ := (hsep t item hseparator).suffix_of_ok hitem
    refine ⟨hleft.trans (hr.trans (List.suffix_cons t rest)), ?_⟩
    rw [List.length_cons]
    omega

end Rounds

end Reckoner
