import Reckoner.Proofs.Grammar.Naming

/-!
# Assignments in a text

An equals sign ties less than any operator, so what stands after `name =` is read as if it stood by
itself: the tokens are the same ones further to the right, and so are the errors. All that the text
before them adds is the definition around the tree.
-/

namespace Reckoner

open Grammar

/-! ## Tokens -/

/-- A text that begins further to the right has the same tokens further to the right. -/
theorem tokensFrom_add (p k : Nat) (cs : List Char) :
    tokensFrom (p + k) cs = (tokensFrom p cs).map (Token.move (· + k)) := by
  induction cs using lexeme_induction generalizing p with
  | nil => rw [tokensFrom, tokensFrom, List.map_nil]
  | blank c cs hspace ih =>
    rw [tokensFrom, tokensFrom, if_pos hspace, if_pos hspace, Nat.add_right_comm]
    exact ih _
  | lexeme c cs hspace ih =>
    rw [tokensFrom, tokensFrom, if_neg (by simp [hspace]), if_neg (by simp [hspace])]
    simp only [List.map_cons]
    rw [Nat.add_right_comm p k 1, Nat.add_right_comm (p + 1) k]
    exact congrArg _ (ih _)

theorem ofChars_name {c : Char} {cs : List Char} (h : IsName (c :: cs)) :
    Lexeme.ofChars c cs = .name (c :: cs) := by
  obtain ⟨⟨d, hd, halpha⟩, hall⟩ := h
  obtain rfl : c = d := by simpa using hd
  have hcs : ∀ e ∈ cs, isNameChar e = true := fun e he => hall e (by simp [he])
  unfold Lexeme.ofChars
  rw [LexemeKind.ofChar?_eq_letter.2 halpha]
  simp only [List.takeWhile_eq_self_iff.2 hcs]

theorem tokens_assignment {name : List Char} (h : IsName name) (cs : List Char) :
    tokens (name ++ '=' :: cs) = ⟨.name name, 0⟩ :: ⟨.mark .equals '=', name.length⟩ ::
      (tokens cs).map (Token.move (· + (name.length + 1))) := by
  have hmark : LexemeKind.equals.IsMark '=' := by decide
  cases name with
  | nil =>
    obtain ⟨⟨c, hc, -⟩, -⟩ := h
    cases hc
  | cons c ds =>
    have hfirst : Lexeme.ofChars c (ds ++ '=' :: cs) = .name (c :: ds) := by
      rw [ofChars_append (hmark.stands cs), ofChars_name h]
    have hblank : isSpace c = false := by
      obtain ⟨⟨d, hd, halpha⟩, -⟩ := h
      obtain rfl : c = d := by simpa using hd
      exact LexemeKind.isSpace_eq_false_of_ofChar? (LexemeKind.ofChar?_eq_letter.2 halpha)
    have hrest : tokensFrom (0 + 1 + ds.length) ('=' :: cs) =
        ⟨.mark .equals '=', ds.length + 1⟩ ::
          (tokens cs).map (Token.move (· + (ds.length + 1 + 1))) := by
      rw [tokensFrom, if_neg (by simp [hmark.isSpace_eq_false]), hmark.ofChars, tokens,
        ← tokensFrom_add]
      simp only [Lexeme.chars, List.length_singleton, Nat.sub_self, List.drop_zero, Nat.add_zero,
        Nat.zero_add, Nat.add_comm 1]
    unfold tokens
    rw [List.cons_append, tokensFrom, if_neg (by simp [hblank]), hfirst]
    simp only [Lexeme.chars, List.length_cons, Nat.add_sub_cancel, List.drop_left, hrest]
    rfl

/-- The marks of a text are characters of it. -/
theorem isMark_of_mem_lexemes {cs : List Char} {k : LexemeKind} {c : Char}
    (h : .mark k c ∈ lexemes cs) : k.IsMark c ∧ c ∈ cs := by
  have hsplits := splits_lexemes cs
  generalize lexemes cs = ls at h hsplits
  induction hsplits with
  | nil => cases h
  | blank _ _ ih => exact ⟨(ih h).1, List.mem_cons_of_mem _ (ih h).2⟩
  | name _ _ _ _ ih =>
    obtain ⟨hmark, hc⟩ := ih (by simpa using h)
    exact ⟨hmark, List.mem_append_right _ hc⟩
  | integer _ _ _ ih =>
    obtain ⟨hmark, hc⟩ := ih (by simpa using h)
    exact ⟨hmark, List.mem_append_right _ hc⟩
  | decimal _ _ _ _ ih =>
    obtain ⟨hmark, hc⟩ := ih (by simpa using h)
    exact ⟨hmark, by simp [hc]⟩
  | mark hk _ ih =>
    rcases List.mem_cons.1 h with heq | h
    · cases heq
      exact ⟨hk, List.mem_cons_self⟩
    · exact ⟨(ih h).1, List.mem_cons_of_mem _ (ih h).2⟩
  | stray _ _ _ ih =>
    obtain ⟨hmark, hc⟩ := ih (by simpa using h)
    exact ⟨hmark, List.mem_cons_of_mem _ hc⟩

/-- None of the tokens is an equals sign. -/
def NoEquals (ts : List Token) : Prop := ∀ t ∈ ts, ∀ c, t.lexeme ≠ .mark .equals c

theorem noEquals_tokens {cs : List Char} (h : '=' ∉ cs) : NoEquals (tokens cs) := by
  intro t ht c hc
  have hmem : .mark .equals c ∈ lexemes cs := hc ▸ List.mem_map_of_mem ht
  obtain ⟨hmark, hchar⟩ := isMark_of_mem_lexemes hmem
  obtain rfl : c = '=' := hmark.eq (by decide)
  exact h hchar

theorem NoEquals.move {ts : List Token} (h : NoEquals ts) (g : Nat → Nat) :
    NoEquals (ts.map (Token.move g)) := by
  intro t ht c
  obtain ⟨t', ht', rfl⟩ := List.mem_map.1 ht
  exact h t' ht' c

/-! ## The same scope -/

theorem Expr.relabel_same (e : Expr) : e.relabel (fun _ role => role) = e := by
  induction e using Expr.induction with
  | num n => rw [relabel_num]
  | sym name role => rw [relabel_sym]
  | app op ps ih => rw [relabel_app, List.map_congr_left ih, List.map_id']

theorem Scope.relabels_same (s : Scope) : s.Relabels (fun _ role => role) s where
  operators := rfl
  store := rfl
  operator _ _ := rfl
  roles _ := rfl

/-! ## Definitions -/

theorem series_of_head {α : Type} {separator : Token → Option (ReaderOf α)} {n : Nat}
    {ts : List Token} (h : ∀ t ∈ ts.head?, separator t = none) (hn : ts.length < n) :
    series separator n ts hn = .ok ([], ⟨ts, hn⟩) := by
  cases ts with
  | nil => rw [series]
  | cons t rest =>
    have hnone := h t (by simp)
    rw [series]
    simp only [hnone]

namespace Scope

variable {s : Scope} {name : String} {stop depth : Nat} {ts : List Token}

/-- What is left behind an expression has no equals sign either. -/
theorem head_rest_expression (h : NoEquals ts) {e : Expr} {r : Rest ts.length}
    (hread : s.expression (s.term stop depth) ts = .ok (e, r)) (item : Reader) :
    ∀ t ∈ r.1.head?, onKind .equals item t = none := by
  intro t ht
  obtain ⟨taken, hts, -⟩ := derives_expression (derives_term s stop depth) _ _ _ hread
  have hmem : t ∈ ts := by
    rw [hts]
    exact List.mem_append_right _ (List.mem_of_mem_head? ht)
  exact onKind_eq_none (h t hmem)

/-- Without an equals sign a chain of definitions is an expression. -/
theorem definition_of_noEquals (h : NoEquals ts) :
    s.definition (s.term stop depth) ts = s.expression (s.term stop depth) ts := by
  cases hread : s.expression (s.term stop depth) ts with
  | error e => simp only [definition, itemAndSeries, hread, bind, Except.bind]
  | ok p =>
    have hrest := head_rest_expression h hread (s.expression (s.term stop depth))
    simp only [definition, itemAndSeries, hread, series_of_head hrest, bind, Except.bind]
    rfl

/-- A chain of definitions that begins with a name and has no equals sign but the one after it is
that name, defined as an expression. -/
theorem definition_assignment (hlower : Text.allUpper name = false) (h : NoEquals ts)
    (p q : Nat) (c : Char) :
    s.definition (s.term stop (depth + 1)) (⟨.name name.toList, p⟩ :: ⟨.mark .equals c, q⟩ :: ts) =
      (do
        ready ts
        let (e, r) ← s.expression (s.term stop (depth + 1)) ts
        return (s.apply (.define s.store) [.sym name (s.roleOf name), e],
          r.weaken (Nat.le_add_right _ 2))) := by
  -- the name alone is read as an expression, which ends at the equals sign
  have hname := accepts_expression (accepts_termAt stop (depth + 1))
    (expression_name (s := s) hlower depth)
  have hends : Follows 2 (⟨.mark .equals c, q⟩ :: ts) := by
    intro t ht
    obtain rfl : (⟨.mark .equals c, q⟩ : Token) = t := by simpa using ht
    exact Nat.lt_succ_self 1
  obtain ⟨hlt, hfirst⟩ : ∃ hlt, s.expression (s.term stop (depth + 1))
      (⟨.name name.toList, p⟩ :: ⟨.mark .equals c, q⟩ :: ts) =
        .ok (.sym name (s.roleOf name), ⟨⟨.mark .equals c, q⟩ :: ts, hlt⟩) :=
    hname.reads [⟨.name name.toList, p⟩] _ rfl hends
  unfold definition
  simp only [itemAndSeries, hfirst, bind, Except.bind]
  rw [series]
  simp only [onKind, if_true, bind, Except.bind]
  cases ready ts with
  | error e => rfl
  | ok _ =>
    cases hread : s.expression (s.term stop (depth + 1)) ts with
    | error e => rfl
    | ok p =>
      -- no further equals sign, so the chain ends there
      have hrest := head_rest_expression h hread (s.expression (s.term stop (depth + 1)))
      simp only [series_of_head hrest]
      rfl

/-! ## Whole texts -/

/-- What was read, unless there are tokens left. -/
def wholly {n : Nat} (p : Expr × Rest n) : Except SyntaxError Expr :=
  match p.2.1 with
  | [] => .ok p.1
  | t :: _ => .error (unexpected t)

theorem readWithin_eq (depth : Nat) (text : List Char) :
    s.readWithin depth text = (do
      ready (tokens text)
      wholly (← s.definition (s.term text.length depth) (tokens text))) := by
  unfold readWithin wholly
  rfl

/-- A text after a name and an equals sign is read to the definition of the name as what the text is
read to by itself, or fails with the error of the text, at the position that this error has now. -/
theorem moved_assignment {text : List Char} (hname : IsName name.toList)
    (hlower : Text.allUpper name = false) (htext : '=' ∉ text) (depth : Nat) :
    Moved (· + (name.length + 1))
      (fun e e' => e' = s.apply (.define s.store) [.sym name (s.roleOf name), e])
      (s.readWithin (depth + 1) text) (s.readWithin (depth + 1) (name.toList ++ '=' :: text)) := by
  have hequals := noEquals_tokens htext
  have hlength : name.toList.length = name.length := String.length_toList
  have hstop : (name.toList ++ '=' :: text).length = text.length + (name.length + 1) := by
    rw [List.length_append, List.length_cons, hlength]
    omega
  rw [readWithin_eq, readWithin_eq, tokens_assignment hname, hlength, hstop,
    definition_of_noEquals hequals, definition_assignment hlower (hequals.move _)]
  have hexpression := movesAlong_expression s.relabels_same (movesAlong_term
    (g := (· + (name.length + 1))) s.relabels_same text.length (depth + 1))
  -- the name itself is a token that can be moved on to
  show Moved _ _ _ ((ready _ >>= fun _ => _) >>= wholly)
  rw [bind_assoc]
  refine (moved_ready (tokens text)).bind fun _ _ _ => ?_
  rw [bind_assoc]
  refine (hexpression (tokens text)).bind fun p q hpq => ?_
  obtain ⟨e, ts, hts⟩ := p
  obtain ⟨e', ts', hts'⟩ := q
  obtain ⟨rfl, rfl⟩ : e' = e.relabel (fun _ role => role) ∧ ts' = ts.map (Token.move _) := hpq
  cases ts with
  | nil =>
    rw [Expr.relabel_same]
    exact .ok rfl
  | cons t rest =>
    show Moved _ _ (.error (unexpected t)) (.error (unexpected (t.move _)))
    rw [unexpected_move]
    exact .error _

end Scope

end Reckoner
