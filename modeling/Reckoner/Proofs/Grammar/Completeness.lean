import Reckoner.Proofs.Grammar.Derivation
import Reckoner.Proofs.Grammar.Lexing
import Reckoner.Proofs.Grammar.Material

/-!
# Every derivation is read

What the grammar derives, the reader accepts, and gives what the derivation gives. A reader takes as
many tokens as it can, so this holds only if the phrase is not continued by the token after it:
tokens have a *strength*, and a phrase of one level ends where a token follows that is weaker than
the level.
-/

namespace Reckoner

open Grammar

/-- How tightly a lexeme ties what is on its left to what is on its right. -/
def Lexeme.strength : Lexeme → Nat
  | .mark .caret _ => 5
  | .mark .slash _ => 4
  | .mark .star _ => 3
  | .mark .plus _ => 2
  | .mark .minus _ => 2
  | .mark .comma _ => 1
  | .mark .equals _ => 1
  | .mark .closing _ => 0
  | _ => 6

/-- A phrase of level `k` can end before the tokens. -/
def Follows (k : Nat) (ts : List Token) : Prop := ∀ t ∈ ts.head?, t.lexeme.strength < k

theorem Follows.mono {k k' : Nat} {ts : List Token} (h : Follows k ts) (hk : k ≤ k') :
    Follows k' ts := fun t ht => Nat.lt_of_lt_of_le (h t ht) hk

/-- What can follow a phrase is no stray character. -/
theorem Follows.ready {k : Nat} {ts : List Token} (h : Follows k ts) (hk : k ≤ 6) :
    ready ts = .ok () := by
  unfold Reckoner.ready
  split
  · next c p rest =>
    have hlt := h ⟨.stray c, p⟩ (by simp)
    simp only [Lexeme.strength] at hlt
    omega
  · rfl

/-- The reader takes tokens with these lexemes off the front, as long as a phrase of level `k` can
end there. -/
structure Accepts {α : Type} (item : ReaderOf α) (k : Nat) (ls : List Lexeme) (a : α) : Prop where
  opens : Opens ls
  reads : ∀ ts rest, ts.map Token.lexeme = ls → Follows k rest →
    ∃ h, item (ts ++ rest) = .ok (a, ⟨rest, h⟩)

theorem ready_of_opens {ts rest : List Token} (h : Opens (ts.map Token.lexeme)) :
    ready (ts ++ rest) = .ok () := by
  obtain ⟨l, ls, heq, hl⟩ := h
  cases ts with
  | nil => simp at heq
  | cons t ts =>
    simp only [List.map_cons, List.cons.injEq] at heq
    unfold ready
    split
    · next c p rest' hts =>
      simp only [List.cons_append, List.cons.injEq] at hts
      exact absurd (heq.1.symm.trans (congrArg Token.lexeme hts.1)) (hl c).1
    · rfl

section Series

variable {α β : Type} {k : Nat} {Q : Phrase β} {separator : Token → Option (ReaderOf β)}

/-- The phrases of a series: a separator weaker than the level, and what the reader after it
accepts. -/
def Separated (separator : Token → Option (ReaderOf β)) (k : Nat) (Q : Phrase β) : Prop :=
  ∀ ls b, Q ls b → ∃ l ls', ls = l :: ls' ∧ l.strength < k ∧
    ∀ t, t.lexeme = l → ∃ item, separator t = some item ∧ Accepts item k ls' b

/-- Where a phrase can end before the rest, it can end before a row of phrases as well, since their
separators are weak enough. -/
theorem Separated.follows (hQ : Separated separator k Q) {ls : List Lexeme} {bs : List β}
    (h : Many Q ls bs) {ts rest : List Token} (hts : ts.map Token.lexeme = ls)
    (hrest : Follows k rest) : Follows k (ts ++ rest) := by
  cases h with
  | nil =>
    obtain rfl : ts = [] := by simpa using hts
    exact hrest
  | cons head _ =>
    obtain ⟨l, ls₁, rfl, hl, -⟩ := hQ _ _ head
    cases ts with
    | nil => simp at hts
    | cons t ts =>
      simp only [List.map_cons, List.cons_append, List.cons.injEq] at hts
      intro t' ht'
      simp only [List.cons_append, List.head?_cons, Option.mem_def, Option.some.injEq] at ht'
      rw [← ht', hts.1]
      exact hl

/-- A repetition takes every phrase of the row and stops where no separator follows. -/
theorem Separated.series (hQ : Separated separator k Q) {ls : List Lexeme} {bs : List β}
    (h : Many Q ls bs) {ts rest : List Token} (hts : ts.map Token.lexeme = ls)
    (hrest : Follows k rest) (hstop : ∀ t ∈ rest.head?, separator t = none) {n : Nat}
    (hn : (ts ++ rest).length < n) :
    ∃ hr, Reckoner.series separator n (ts ++ rest) hn = .ok (bs, ⟨rest, hr⟩) := by
  induction h generalizing ts n with
  | nil =>
    obtain rfl : ts = [] := by simpa using hts
    refine ⟨by simpa using hn, ?_⟩
    cases rest with
    | nil =>
      simp only [List.nil_append]
      rw [Reckoner.series]
    | cons t rest =>
      have hnone := hstop t (by simp)
      simp only [List.nil_append]
      rw [Reckoner.series]
      simp only [hnone]
  | @cons ls ls' b bs head tail ih =>
    obtain ⟨l, ls₁, rfl, hl, hitem⟩ := hQ _ _ head
    -- the tokens are those of the separator, of the item and of the items after it
    obtain ⟨ts₁, ts₂, rfl, hts₁, hts₂⟩ := List.map_eq_append_iff.1 hts
    cases ts₁ with
    | nil => simp at hts₁
    | cons t ts₁ =>
      simp only [List.map_cons, List.cons.injEq] at hts₁
      obtain ⟨item, hsep, hopens, hreads⟩ := hitem t hts₁.1
      obtain ⟨hlt, hread⟩ := hreads ts₁ (ts₂ ++ rest) hts₁.2 (hQ.follows tail hts₂ hrest)
      have hready : ready (ts₁ ++ (ts₂ ++ rest)) = .ok () :=
        ready_of_opens (by rw [hts₁.2]; exact hopens)
      have hn' : (ts₂ ++ rest).length < n := by
        simp only [List.length_append, List.length_cons] at hn ⊢
        omega
      obtain ⟨hr, hseries⟩ := ih hts₂ hn'
      refine ⟨hr, ?_⟩
      have hall : t :: ts₁ ++ ts₂ ++ rest = t :: (ts₁ ++ (ts₂ ++ rest)) := by simp
      simp only [hall]
      rw [Reckoner.series]
      simp only [hsep, hready, hread, hseries, bind, Except.bind, pure, Except.pure]

/-- An item and a row of phrases behind it are taken as a whole by the reader of both. -/
theorem Accepts.itemAndSeries {item : ReaderOf α} {ls ls' : List Lexeme} {a : α} {bs : List β}
    {k' : Nat} (hitem : Accepts item k ls a) (hQ : Separated separator k Q) (h : Many Q ls' bs)
    (hk : k' ≤ k) (hstop : ∀ t, t.lexeme.strength < k' → separator t = none) :
    Accepts (itemAndSeries item separator) k' (ls ++ ls') (a, bs) := by
  refine ⟨hitem.opens.append ls', fun ts rest hts hrest => ?_⟩
  obtain ⟨ts₁, ts₂, rfl, hts₁, hts₂⟩ := List.map_eq_append_iff.1 hts
  obtain ⟨hlt, hread⟩ : ∃ hlt, item (ts₁ ++ ts₂ ++ rest) = .ok (a, ⟨ts₂ ++ rest, hlt⟩) := by
    rw [List.append_assoc]
    exact hitem.reads ts₁ (ts₂ ++ rest) hts₁ (hQ.follows h hts₂ (hrest.mono hk))
  obtain ⟨hr, hseries⟩ := hQ.series h hts₂ (hrest.mono hk) (fun t ht => hstop t (hrest t ht)) hlt
  refine ⟨hr, ?_⟩
  unfold Reckoner.itemAndSeries
  simp only [hread, hseries, bind, Except.bind, pure, Except.pure]

theorem Accepts.map {item : ReaderOf α} {ls : List Lexeme} {a : α} (h : Accepts item k ls a)
    (f : α → β) : Accepts (fun ts => do let (a, r) ← item ts; return (f a, r)) k ls (f a) := by
  refine ⟨h.opens, fun ts rest hts hrest => ?_⟩
  obtain ⟨hlt, hread⟩ := h.reads ts rest hts hrest
  refine ⟨hlt, ?_⟩
  simp only [hread, bind, Except.bind, pure, Except.pure]

theorem separated_onKind (kind : LexemeKind) (item : Token → ReaderOf β) {P : Phrase β}
    (hP : ∀ t ls b, P ls b → Accepts (item t) k ls b)
    (hk : ∀ c, (Lexeme.mark kind c).strength < k) :
    Separated (fun t => onKind kind (item t) t) k (After kind P) := by
  intro ls b h
  obtain ⟨c, h⟩ := h
  refine ⟨_, _, rfl, hk c, fun t ht => ⟨item t, ?_, hP t _ _ h⟩⟩
  show onKind kind (item t) t = some (item t)
  unfold onKind
  rw [ht]
  simp only [if_true]

theorem onKind_eq_none {kind : LexemeKind} {item : ReaderOf β} {t : Token}
    (h : ∀ c, t.lexeme ≠ .mark kind c) : onKind kind item t = none := by
  unfold onKind
  split
  · next k' c heq =>
    split_ifs with hk
    · exact absurd (hk ▸ heq) (h c)
    · rfl
  · rfl

end Series

namespace Scope

variable {s : Scope}

section Terms

variable {term : Reader} {T : Phrase Expr} {ls : List Lexeme} {e : Expr}

/-! ### Operators between terms -/

theorem accepts_power (hT : ∀ ls e, T ls e → Accepts term 6 ls e)
    (h : Power s.actions T ls e) : Accepts (s.power term) 5 ls e := by
  obtain ⟨base, exponents⟩ := h
  have hread := (hT _ _ base).itemAndSeries
    (separated_onKind .caret (fun _ => term) (fun _ => hT) (by simp [Lexeme.strength]))
    exponents (show 5 ≤ 6 by omega) fun t ht => onKind_eq_none fun c hc => by
      simp [hc, Lexeme.strength] at ht
  exact hread.map fun p => s.chain .power p.1 p.2

theorem accepts_divisor (hT : ∀ ls e, T ls e → Accepts term 6 ls e) (position : Nat)
    (h : Divisor s.actions T ls e) : Accepts (s.divisor term position) 5 ls e := by
  obtain ⟨hpower, hzero⟩ := h
  have hread := accepts_power hT hpower
  refine ⟨hread.opens, fun ts rest hts hrest => ?_⟩
  obtain ⟨hlt, hread⟩ := hread.reads ts rest hts hrest
  refine ⟨hlt, ?_⟩
  unfold divisor
  have hzero' : e.isZero = false := hzero
  simp [hread, hzero', bind, Except.bind, pure, Except.pure]

/-- A division is read to what its rule makes of the powers, as long as no star, slash or caret
follows. -/
theorem accepts_division (hT : ∀ ls e, T ls e → Accepts term 6 ls e)
    (h : Division s.actions T ls e) : Accepts (s.division term) 4 ls e := by
  obtain ⟨numerator, divisors⟩ := h
  have hread := (accepts_power hT numerator).itemAndSeries
    (separated_onKind .slash (fun t => s.divisor term t.start)
      (fun t _ _ => accepts_divisor hT t.start) (by simp [Lexeme.strength]))
    divisors (show 4 ≤ 5 by omega) fun t ht => onKind_eq_none fun c hc => by
      simp [hc, Lexeme.strength] at ht
  exact hread.map fun p => s.quotient p.1 p.2

theorem accepts_multiplication (hT : ∀ ls e, T ls e → Accepts term 6 ls e) {negative : Bool}
    (h : Multiplication s.actions T negative ls e) :
    Accepts (s.multiplication term negative) 3 ls e := by
  obtain ⟨first, factors⟩ := h
  have hread := (accepts_division hT first).itemAndSeries
    (separated_onKind .star (fun _ => s.division term)
      (fun _ _ _ => accepts_division hT) (by simp [Lexeme.strength]))
    factors (show 3 ≤ 4 by omega) fun t ht => onKind_eq_none fun c hc => by
      simp [hc, Lexeme.strength] at ht
  exact hread.map fun p =>
    s.join .multiply (if negative then negateFactors (p.1 :: p.2) else p.1 :: p.2)

theorem separated_signed (hT : ∀ ls e, T ls e → Accepts term 6 ls e) :
    Separated (s.signedMultiplication term) 3 (Signed s.actions T) := by
  intro ls e h
  cases h with
  | plus h =>
    obtain ⟨c, h⟩ := h
    refine ⟨_, _, rfl, by simp [Lexeme.strength], fun t ht =>
      ⟨s.multiplication term false, ?_, accepts_multiplication hT h⟩⟩
    unfold signedMultiplication
    rw [ht]
  | minus h =>
    obtain ⟨c, h⟩ := h
    refine ⟨_, _, rfl, by simp [Lexeme.strength], fun t ht =>
      ⟨s.multiplication term true, ?_, accepts_multiplication hT h⟩⟩
    unfold signedMultiplication
    rw [ht]

theorem signedMultiplication_eq_none {t : Token}
    (h : ∀ c, t.lexeme ≠ .mark .plus c ∧ t.lexeme ≠ .mark .minus c) :
    s.signedMultiplication term t = none := by
  unfold signedMultiplication
  split
  · next c heq => exact absurd heq (h c).1
  · next c heq => exact absurd heq (h c).2
  · rfl

theorem accepts_leading (hT : ∀ ls e, T ls e → Accepts term 6 ls e)
    (h : Leading s.actions T ls e) : Accepts (s.leadingMultiplication term) 3 ls e := by
  cases h with
  | signed h =>
    obtain ⟨l, ls, rfl, hl, hitem⟩ := separated_signed hT _ _ h
    refine ⟨?_, fun ts rest hts hrest => ?_⟩
    · cases h with
      | plus h =>
        cases h
        exact ⟨_, _, rfl, by simp⟩
      | minus h =>
        cases h
        exact ⟨_, _, rfl, by simp⟩
    · cases ts with
      | nil => simp at hts
      | cons t ts =>
        simp only [List.map_cons, List.cons.injEq] at hts
        obtain ⟨item, hsep, hopens, hreads⟩ := hitem t hts.1
        obtain ⟨hlt, hread⟩ := hreads ts rest hts.2 hrest
        have hready : ready (ts ++ rest) = .ok () :=
          ready_of_opens (by rw [hts.2]; exact hopens)
        refine ⟨Nat.lt_of_lt_of_le hlt (Nat.le_succ _), ?_⟩
        simp [leadingMultiplication, hsep, afterToken, hready, hread, bind, Except.bind, pure,
          Except.pure, Rest.weaken]
  | unsigned h first =>
    have hread := accepts_multiplication hT h
    refine ⟨hread.opens, fun ts rest hts hrest => ?_⟩
    obtain ⟨hlt, hread'⟩ := hread.reads ts rest hts hrest
    refine ⟨hlt, ?_⟩
    obtain ⟨l, ls', rfl, -⟩ := hread.opens
    cases ts with
    | nil => simp at hts
    | cons t ts =>
      simp only [List.map_cons, List.cons.injEq] at hts
      -- a first lexeme that is no sign leads to the multiplication itself
      have hnone : s.signedMultiplication term t = none :=
        signedMultiplication_eq_none (hts.1 ▸ first l (by simp))
      simp only [List.cons_append] at hread' ⊢
      simp [leadingMultiplication, hnone, hread']

/-- An expression is read to what its rule makes of the multiplications if terms are read. -/
theorem accepts_expression (hT : ∀ ls e, T ls e → Accepts term 6 ls e)
    (h : Expression s.actions T ls e) : Accepts (s.expression term) 2 ls e := by
  obtain ⟨first, terms⟩ := h
  have hread := (accepts_leading hT first).itemAndSeries (separated_signed hT) terms
    (show 2 ≤ 3 by omega) fun t ht => signedMultiplication_eq_none fun c => by
      constructor <;> intro hc <;> simp [hc, Lexeme.strength] at ht
  exact hread.map fun p => s.join .add (p.1 :: p.2)

/-! ### Terms -/

/-- The closing parenthesis is taken off where there is one. -/
theorem closing_eq_ok (missing : Option Token → SyntaxError) {n : Nat} {t : Token} {c : Char}
    (ht : t.lexeme = .mark .closing c) {rest : List Token} (hrest : Follows 6 rest)
    (h : (t :: rest).length < n) : ∃ hr, closing missing ⟨t :: rest, h⟩ = .ok ⟨rest, hr⟩ := by
  refine ⟨Nat.lt_trans (Nat.lt_succ_self _) h, ?_⟩
  simp only [closing]
  rw [ht]
  simp [hrest.ready le_rfl, bind, Except.bind, pure, Except.pure]

/-- Every phrase but a series without end can end before a closing parenthesis. -/
theorem follows_closing {k : Nat} {t : Token} {c : Char} (ht : t.lexeme = .mark .closing c)
    (rest : List Token) : Follows (k + 1) (t :: rest) := by
  intro t' ht'
  obtain rfl : t = t' := by simpa using ht'
  simp [ht, Lexeme.strength]

theorem accepts_parameters {item : Reader} {es : List Expr} (stop : Nat)
    (hP : ∀ ls e, Expression s.actions T ls e → Accepts item 2 ls e)
    (h : Parameters s.actions T ls es) {ts rest : List Token} {t : Token} {c : Char}
    (hts : ts.map Token.lexeme = ls) (ht : t.lexeme = .mark .closing c) (hrest : Follows 6 rest) :
    ∃ hr, parameters item stop (ts ++ t :: rest) = .ok (es, ⟨rest, hr⟩) := by
  cases h with
  | none =>
    obtain rfl : ts = [] := by simpa using hts
    obtain ⟨hr, hclose⟩ := closing_eq_ok (fun t => .unclosedCall (t.elim stop Token.start)) ht
      hrest (n := (t :: rest).length + 1) (Nat.lt_succ_self _)
    refine ⟨hr, ?_⟩
    simp only [List.nil_append]
    unfold parameters
    simp only [List.head?_cons, Option.map_some, ht]
    simp only [hclose, bind, Except.bind, pure, Except.pure]
  | some first others =>
    have hread := (hP _ _ first).itemAndSeries
      (separated_onKind .comma (fun _ => item) (fun _ => hP)
        (by simp [Lexeme.strength])) others (show 1 ≤ 2 by omega) fun t ht =>
          onKind_eq_none fun c hc => by simp [hc, Lexeme.strength] at ht
    obtain ⟨hlt, hread'⟩ := hread.reads ts (t :: rest) hts (follows_closing ht rest)
    obtain ⟨hr, hclose⟩ := closing_eq_ok (fun t => .unclosedCall (t.elim stop Token.start)) ht
      hrest hlt
    refine ⟨Nat.lt_of_lt_of_le hr (Nat.le_succ _), ?_⟩
    unfold parameters
    split
    · next c' hhead =>
      -- an expression does not start with the closing parenthesis of an empty list
      obtain ⟨l, ls₁, heq, hl⟩ := hread.opens
      cases ts with
      | nil => simp [heq] at hts
      | cons t' ts =>
        rw [heq] at hts
        simp only [List.map_cons, List.cons.injEq] at hts
        simp only [List.cons_append, List.head?_cons, Option.map_some, Option.some.injEq] at hhead
        exact absurd (hts.1.symm.trans hhead) (hl c').2
    · simp [hread', hclose, bind, Except.bind, pure, Except.pure, Rest.weaken]

theorem exists_of_map_bracket {ts : List Token} {l l' : Lexeme}
    (h : ts.map Token.lexeme = l :: ls ++ [l']) :
    ∃ t ts' t', ts = t :: ts' ++ [t'] ∧ t.lexeme = l ∧ ts'.map Token.lexeme = ls ∧
      t'.lexeme = l' := by
  obtain ⟨ts₁, ts₂, rfl, h₁, h₂⟩ := List.map_eq_append_iff.1 h
  obtain ⟨t', rfl, ht'⟩ := List.map_eq_singleton_iff.1 h₂
  cases ts₁ with
  | nil => simp at h₁
  | cons t ts' =>
    simp only [List.map_cons, List.cons.injEq] at h₁
    exact ⟨t, ts', t', rfl, h₁.1, h₁.2, ht'⟩

theorem accepts_negative {stop depth : Nat} (c : Char) (h : Accepts (s.term stop depth) 6 ls e) :
    Accepts (s.term stop (depth + 1)) 6 (.mark .minus c :: ls) (s.actions.negative e) := by
  refine ⟨⟨_, _, rfl, by simp⟩, fun ts rest hts hrest => ?_⟩
  cases ts with
  | nil => simp at hts
  | cons t ts =>
    simp only [List.map_cons, List.cons.injEq] at hts
    obtain ⟨hlt, hread⟩ := h.reads ts rest hts.2 hrest
    have hready : ready (ts ++ rest) = .ok () := ready_of_opens (by rw [hts.2]; exact h.opens)
    refine ⟨Nat.lt_of_lt_of_le hlt (Nat.le_succ _), ?_⟩
    simp [term, termWith, hts.1, afterToken, hready, hread, bind, Except.bind, pure, Except.pure,
      Rest.weaken, actions]

theorem accepts_name {stop depth : Nat} {cs : List Char} (h : s.actions.name cs e) :
    Accepts (s.term stop (depth + 1)) 6 [.name cs] e := by
  refine ⟨⟨_, _, rfl, by simp⟩, fun ts rest hts hrest => ?_⟩
  obtain ⟨t, rfl, ht⟩ := List.map_eq_singleton_iff.1 hts
  refine ⟨by simp, ?_⟩
  simp only [List.cons_append, List.nil_append, term, termWith, ht]
  simp only [hrest.ready le_rfl, bind, Except.bind]
  have hsym := h t.start
  cases rest with
  | nil => simp [named, hsym, bind, Except.bind, pure, Except.pure]
  | cons t' rest =>
    -- a parenthesis, which would make this a call, cannot follow a term
    have ht' := hrest t' (by simp)
    simp only [named, hsym, bind, Except.bind]
    split
    · next c name op heq =>
      simp [heq, Lexeme.strength] at ht'
    · next heq _ =>
      simp [heq, Lexeme.strength] at ht'
    · rfl

/-- The call of a name is read with its parameters, up to its own closing parenthesis. -/
theorem accepts_call {stop depth : Nat} {cs : List Char} {es : List Expr} (c c' : Char)
    (hE : ∀ ls e, Expression s.actions T ls e → Accepts (s.expression (s.term stop depth)) 2 ls e)
    (h : Parameters s.actions T ls es) (value : s.actions.call cs es e) :
    Accepts (s.term stop (depth + 1)) 6
      (.name cs :: .mark .opening c :: ls ++ [.mark .closing c']) e := by
  obtain ⟨name, op, hsym, rfl⟩ := value
  refine ⟨⟨_, _, rfl, by simp⟩, fun ts rest hts hrest => ?_⟩
  cases ts with
  | nil => simp at hts
  | cons t ts =>
    simp only [List.cons_append, List.map_cons, List.cons.injEq] at hts
    obtain ⟨topen, ts, tclose, rfl, hopen, hts', hclose⟩ := exists_of_map_bracket hts.2
    obtain ⟨hr, hread⟩ := accepts_parameters stop hE h hts' hclose hrest
    have hready : ready (ts ++ tclose :: rest) = .ok () := by
      cases h with
      | none =>
        obtain rfl : ts = [] := by simpa using hts'
        exact (follows_closing hclose rest (k := 5)).ready le_rfl
      | some first _ => exact ready_of_opens (by rw [hts']; exact (hE _ _ first).opens.append _)
    have hready' : ready (topen :: (ts ++ tclose :: rest)) = .ok () := by
      rw [← List.singleton_append]
      exact ready_of_opens ⟨_, _, by rw [List.map_singleton, hopen], by simp⟩
    have hall : t :: (topen :: ts ++ [tclose]) ++ rest =
        t :: topen :: (ts ++ tclose :: rest) := by simp
    rw [hall]
    refine ⟨by simp; omega, ?_⟩
    simp [term, termWith, hts.1, hready', named, hsym t.start, hopen, hready, hread, bind,
      Except.bind, pure, Except.pure, Rest.weaken]

theorem accepts_numeral {stop depth : Nat} {ds : List Char} {fs : Option (List Char)}
    (h : s.actions.numeral ds fs e) :
    Accepts (s.term stop (depth + 1)) 6 [.numeral ds fs] e := by
  obtain ⟨n, hn, rfl⟩ := h
  refine ⟨⟨_, _, rfl, by simp⟩, fun ts rest hts hrest => ?_⟩
  obtain ⟨t, rfl, ht⟩ := List.map_eq_singleton_iff.1 hts
  refine ⟨by simp, ?_⟩
  simp [term, termWith, ht, hrest.ready le_rfl, hn, bind, Except.bind, pure, Except.pure]

/-- An expression in parentheses is read as a term. -/
theorem accepts_group {stop depth : Nat} (c c' : Char)
    (h : Accepts (s.expression (s.term stop depth)) 2 ls e) :
    Accepts (s.term stop (depth + 1)) 6 (.mark .opening c :: ls ++ [.mark .closing c']) e := by
  refine ⟨⟨_, _, rfl, by simp⟩, fun ts rest hts hrest => ?_⟩
  obtain ⟨topen, ts, tclose, rfl, hopen, hts', hclose⟩ := exists_of_map_bracket hts
  obtain ⟨hlt, hread⟩ := h.reads ts (tclose :: rest) hts' (follows_closing hclose rest)
  obtain ⟨hr, hclosed⟩ := closing_eq_ok (fun _ => .missingClose topen.start) hclose hrest hlt
  have hready : ready (ts ++ tclose :: rest) = .ok () :=
    ready_of_opens (by rw [hts']; exact h.opens)
  have hall : topen :: ts ++ [tclose] ++ rest = topen :: (ts ++ tclose :: rest) := by simp
  rw [hall]
  refine ⟨by simp; omega, ?_⟩
  simp [term, termWith, hopen, afterToken, parenthesized, hready, hread, hclosed, bind,
    Except.bind, pure, Except.pure, Rest.weaken]

/-- Every rule for terms is read, one level deeper than the terms inside. -/
theorem accepts_term {stop depth : Nat} (hT : ∀ ls e, T ls e → Accepts (s.term stop depth) 6 ls e)
    (h : Term s.actions T ls e) : Accepts (s.term stop (depth + 1)) 6 ls e := by
  have hE : ∀ ls e, Expression s.actions T ls e →
      Accepts (s.expression (s.term stop depth)) 2 ls e := fun _ _ => accepts_expression hT
  cases h with
  | negative c h => exact accepts_negative c (hT _ _ h)
  | name h => exact accepts_name h
  | call c c' h value => exact accepts_call c c' hE h value
  | numeral h => exact accepts_numeral h
  | group c c' h => exact accepts_group c c' (hE _ _ h)

/-- Every term of the grammar is read within its depth. The induction is on the depth. -/
theorem accepts_termAt (stop depth : Nat) (ls : List Lexeme) (e : Expr)
    (h : termAt s.actions depth ls e) : Accepts (s.term stop depth) 6 ls e := by
  induction depth generalizing ls e with
  | zero => exact h.elim
  | succ depth ih => exact accepts_term ih h

/-! ### Whole texts -/

/-- A chain of definitions is read up to the end of the text. -/
theorem accepts_definition (hT : ∀ ls e, T ls e → Accepts term 6 ls e)
    (h : Definition s.actions T ls e) : Accepts (s.definition term) 1 ls e := by
  obtain ⟨first, values⟩ := h
  have hread := (accepts_expression hT first).itemAndSeries
    (separated_onKind .equals (fun _ => s.expression term)
      (fun _ _ _ => accepts_expression hT) (by simp [Lexeme.strength])) values
      (show 1 ≤ 2 by omega) fun t ht =>
        onKind_eq_none fun c hc => by simp [hc, Lexeme.strength] at ht
  exact hread.map fun p => s.chain (.define s.store) p.1 p.2

end Terms

/-- A text is read to what a derivation of its lexemes gives. -/
theorem readWithin_eq_ok {depth : Nat} {text : List Char} {e : Expr}
    (h : Definition s.actions (termAt s.actions depth) (lexemes text) e) :
    s.readWithin depth text = .ok e := by
  have hread := accepts_definition (accepts_termAt text.length depth) h
  obtain ⟨hlt, hread'⟩ : ∃ hlt,
      s.definition (s.term text.length depth) (tokens text) = .ok (e, ⟨[], hlt⟩) := by
    rw [← List.append_nil (tokens text)]
    exact hread.reads (tokens text) [] rfl (by simp [Follows])
  have hready : ready (tokens text) = .ok () := by
    rw [← List.append_nil (tokens text)]
    exact ready_of_opens hread.opens
  unfold readWithin
  simp [hready, hread', bind, Except.bind, pure, Except.pure]

end Scope

end Reckoner
