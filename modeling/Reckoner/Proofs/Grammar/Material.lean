import Reckoner.Grammar.Reader
import Reckoner.Proofs.Simplify.Material

/-!
# What a text is read to is made of

Reading puts together what the lexemes of a text and the scope give. A property `F` of tokens says
which lexemes there are, and `Scope.Gives` which material they give; then everything that is read
from such tokens is made of that material. `Posts` is the rule of composition for readers: it speaks
about the tokens that are left as well.
-/

namespace Reckoner

theorem except_bind_eq_ok {ε α β : Type} {x : Except ε α} {f : α → Except ε β} {b : β} :
    (x >>= f) = .ok b ↔ ∃ a, x = .ok a ∧ f a = .ok b := by
  cases x <;> simp [bind, Except.bind]

theorem exists_eq_ok {ε α : Type} {x : Except ε α} {p : α → Bool} (h : x.toOption.any p = true) :
    ∃ a, x = .ok a ∧ p a = true := by
  cases x with
  | ok a => exact ⟨a, rfl, h⟩
  | error e => cases h

theorem eq_error_of_map {ε α : Type} {x : Except ε α} {e : ε}
    (h : x.map (fun _ => ()) = .error e) : x = .error e := by
  cases x with
  | ok a => cases h
  | error e' =>
    cases h
    rfl

/-! ## Readers -/

section Readers

variable {α β : Type} {F : Token → Prop} {Q : α → Prop} {Q' : β → Prop}

/-- From tokens with `F` the reader gives values with `Q`, and leaves tokens with `F`. -/
def Posts (F : Token → Prop) (item : ReaderOf α) (Q : α → Prop) : Prop :=
  ∀ ts a r, (∀ t ∈ ts, F t) → item ts = .ok (a, r) → Q a ∧ ∀ t ∈ r.1, F t

/-- Moving past a token leaves tokens of the text. -/
theorem Posts.afterToken {item : ReaderOf α} (hitem : Posts F item Q) {t : Token}
    {rest : List Token} {a : α} {r : Rest (t :: rest).length} (hts : ∀ t' ∈ rest, F t')
    (h : afterToken item t rest = .ok (a, r)) : Q a ∧ ∀ t ∈ r.1, F t := by
  obtain ⟨-, -, h⟩ := except_bind_eq_ok.1 h
  obtain ⟨⟨b, r'⟩, hitem', h⟩ := except_bind_eq_ok.1 h
  cases h
  exact hitem rest a r' hts hitem'

/-- What every round of a repetition gives, all rounds give. The induction is on the rounds. -/
theorem Posts.series {separator : Token → Option (ReaderOf α)}
    (hsep : ∀ t item, F t → separator t = some item → Posts F item Q) {n : Nat}
    (ts : List Token) {hn : ts.length < n} {as : List α} {r : Rest n} (hts : ∀ t ∈ ts, F t)
    (h : series separator n ts hn = .ok (as, r)) : (∀ a ∈ as, Q a) ∧ ∀ t ∈ r.1, F t := by
  induction ts, hn using Reckoner.series.induct separator n generalizing as r with
  | case1 =>
    rw [Reckoner.series] at h
    cases h
    exact ⟨by simp, by simp⟩
  | case2 t rest _ hnone =>
    rw [Reckoner.series, hnone] at h
    cases h
    exact ⟨by simp, hts⟩
  | case3 t rest _ item hitem _ ih =>
    rw [Reckoner.series, hitem] at h
    obtain ⟨-, -, h⟩ := except_bind_eq_ok.1 h
    obtain ⟨⟨a, r'⟩, ha, h⟩ := except_bind_eq_ok.1 h
    obtain ⟨⟨as', r''⟩, has, h⟩ := except_bind_eq_ok.1 h
    cases h
    obtain ⟨hQ, hr'⟩ := hsep t item (hts t (by simp)) hitem rest a r'
      (fun t' ht' => hts t' (by simp [ht'])) ha
    obtain ⟨hQs, hr''⟩ := ih r' hr' has
    exact ⟨List.forall_mem_cons.2 ⟨hQ, hQs⟩, hr''⟩

/-- An item and a repetition give what each of them gives. -/
theorem Posts.itemAndSeries {item : ReaderOf α} {separator : Token → Option (ReaderOf β)}
    (hitem : Posts F item Q)
    (hsep : ∀ t item, F t → separator t = some item → Posts F item Q') :
    Posts F (itemAndSeries item separator) fun p => Q p.1 ∧ ∀ b ∈ p.2, Q' b := by
  intro ts p r hts h
  obtain ⟨⟨a, r'⟩, ha, h⟩ := except_bind_eq_ok.1 h
  obtain ⟨⟨bs, r''⟩, hbs, h⟩ := except_bind_eq_ok.1 h
  cases h
  obtain ⟨hQ, hr'⟩ := hitem ts a r' hts ha
  obtain ⟨hQs, hr''⟩ := Posts.series hsep r'.1 hr' hbs
  exact ⟨⟨hQ, hQs⟩, hr''⟩

theorem Posts.onKind {kind : LexemeKind} {item : ReaderOf α} (hitem : Posts F item Q) :
    ∀ t item', F t → onKind kind item t = some item' → Posts F item' Q := by
  intro t item' _ h
  unfold Reckoner.onKind at h
  split at h
  · split at h
    · cases h
      exact hitem
    · cases h
  · cases h

theorem Posts.map {item : ReaderOf α} (hitem : Posts F item Q) {f : α → β}
    (hf : ∀ a, Q a → Q' (f a)) :
    Posts F (fun ts => do let (a, r) ← item ts; return (f a, r)) Q' := by
  intro ts b r hts h
  obtain ⟨⟨a, r'⟩, ha, h⟩ := except_bind_eq_ok.1 h
  cases h
  obtain ⟨hQ, hr⟩ := hitem ts a _ hts ha
  exact ⟨hf a hQ, hr⟩

end Readers

/-! ## Scopes -/

/-- What the lexemes of tokens with `F` give in the scope belongs to the material. -/
structure Scope.Gives (s : Scope) (F : Token → Prop) (M : Material) : Prop where
  /-- The numbers of numerals. -/
  numeral : ∀ {position ds fs n}, F ⟨.numeral ds fs, position⟩ →
    readNumeral position ds fs = .ok n → M.number n
  /-- Exact numbers with the opposite sign. -/
  negated : ∀ {n m}, M.number n → n.negateExact? = some m → M.number m
  /-- The factor that a minus sign stands for, and the exponent of a reciprocal. -/
  minusOne : M.number .minusOne
  /-- The ratios of integers. -/
  ratio : ∀ {a b}, M.number (.integer a) → M.number (.integer b) →
    M.number (.fraction (Rat.divInt a b))
  /-- The operators that marks stand for. -/
  arithmetic : ∀ {op}, op.IsArithmetic → M.operator (s.current op)
  /-- The operator that an equals sign stands for. -/
  definition : ∀ {c position}, F ⟨.mark .equals c, position⟩ →
    M.operator (s.current (.define s.store))
  /-- Names by themselves. -/
  symbol : ∀ {cs position e}, F ⟨.name cs, position⟩ →
    s.symbol (String.ofList cs) position = .ok e → e.MadeOf M
  /-- Operators that are called. -/
  call : ∀ {cs position name op}, F ⟨.name cs, position⟩ →
    s.symbol (String.ofList cs) position = .ok (.sym name (.operator op)) → M.operator op

namespace Scope

variable {s : Scope} {F : Token → Prop} {M : Material}

/-- A name in upper case is the name of an operator, and any other one is a variable. -/
theorem symbol_eq_ok {name : String} {position : Nat} {e : Expr}
    (h : s.symbol name position = .ok e) :
    (Text.allUpper name = true ∧ ∃ op, s.operator? name = some op ∧ e = .ofOperator op) ∨
      (Text.allUpper name = false ∧
        e = if s.isDefined name then .sym name (.stored s.store) else .free name) := by
  unfold symbol at h
  split at h
  · next hupper =>
    split at h
    · next op hop =>
      cases h
      exact .inl ⟨hupper, op, hop, rfl⟩
    · cases h
  · next hlower =>
    refine .inr ⟨by simpa using hlower, ?_⟩
    split at h <;> next hdef => cases h; simp [hdef]

/-- Only an error says where the name stands. -/
theorem symbol_position {name : String} {position : Nat} {e : Expr}
    (h : s.symbol name position = .ok e) (position' : Nat) : s.symbol name position' = .ok e := by
  unfold symbol at h ⊢
  by_cases hupper : Text.allUpper name = true
  · rw [if_pos hupper] at h ⊢
    cases hop : s.operator? name with
    | none => rw [hop] at h; cases h
    | some op => rw [hop] at h; exact h
  · rw [if_neg hupper] at h ⊢
    exact h

/-! ### Materials with all numbers -/

/-- The operator that a built-in one was replaced by belongs to the material as well. -/
theorem operator_current (hoperator : ∀ name op, s.operator? name = some op → M.operator op)
    {op : Operator} (hop : M.operator op) : M.operator (s.current op) := by
  unfold Scope.current
  cases h : s.operator? op.name with
  | none => exact hop
  | some op' => exact hoperator op.name op' h

/-- Where the material has all numbers, and the symbols that names are read to, only the operators
matter. -/
theorem gives_of_operators (hnumber : ∀ n, M.number n)
    (hsymbol : ∀ name role, (∀ id, role = .stored id → id = s.store) → M.symbol name role)
    (harithmetic : ∀ op : Operator, op.IsArithmetic → M.operator (s.current op))
    (hdefine : ∀ c position, F ⟨.mark .equals c, position⟩ →
      M.operator (s.current (.define s.store)))
    (hoperator : ∀ cs position op, F ⟨.name cs, position⟩ →
      s.operator? (String.ofList cs) = some op → M.operator op) : s.Gives F M := by
  constructor
  case numeral => exact fun _ _ => hnumber _
  case negated => exact fun _ _ => hnumber _
  case minusOne => exact hnumber _
  case ratio => exact fun _ _ => hnumber _
  case arithmetic => exact fun hop => harithmetic _ hop
  case definition => exact fun hF => hdefine _ _ hF
  case symbol =>
    intro cs position e _ h
    rcases symbol_eq_ok h with ⟨-, op, -, rfl⟩ | ⟨-, rfl⟩
    · exact Expr.madeOf_sym.2 (hsymbol _ _ fun _ h => by cases h)
    · split
      · exact Expr.madeOf_sym.2 (hsymbol _ _ fun _ h => by cases h; rfl)
      · exact Expr.madeOf_sym.2 (hsymbol _ _ fun _ h => by cases h)
  case call =>
    intro cs position name op hF h
    rcases symbol_eq_ok h with ⟨-, op', hop', heq⟩ | ⟨-, heq⟩
    · cases heq
      exact hoperator _ _ _ hF hop'
    · split at heq
      · cases heq
      · cases heq

/-! ### Trees that the grammar builds -/

theorem Gives.apply (h : s.Gives F M) {op : Operator} (hop : op.IsArithmetic) {ps : List Expr}
    (hps : ∀ p ∈ ps, p.MadeOf M) : (s.apply op ps).MadeOf M :=
  Expr.madeOf_app.2 ⟨h.arithmetic hop, hps⟩

theorem Gives.join (h : s.Gives F M) {op : Operator} (hop : op.IsArithmetic) {es : List Expr}
    (hes : ∀ e ∈ es, e.MadeOf M) : (s.join op es).MadeOf M := by
  unfold Scope.join
  split
  · exact hes _ (by simp)
  · exact h.apply hop hes

theorem madeOf_chain {op : Operator} {e : Expr} {es : List Expr} (he : e.MadeOf M)
    (hes : ∀ x ∈ es, x.MadeOf M ∧ M.operator (s.current op)) : (s.chain op e es).MadeOf M := by
  unfold Scope.chain
  induction es generalizing e with
  | nil => exact he
  | cons x es ih =>
    obtain ⟨hx, hop⟩ := hes x (by simp)
    refine ih ?_ fun y hy => hes y (by simp [hy])
    exact Expr.madeOf_app.2 ⟨hop, by simp [he, hx]⟩

/-- A division is a product with reciprocals, or a fraction of two integers. -/
theorem Gives.quotient (h : s.Gives F M) {e : Expr} {ds : List Expr} (he : e.MadeOf M)
    (hds : ∀ d ∈ ds, d.MadeOf M) : (s.quotient e ds).MadeOf M := by
  unfold Scope.quotient
  split
  · exact he
  · exact Expr.madeOf_num.2
      (h.ratio (Expr.madeOf_num.1 he) (Expr.madeOf_num.1 (hds _ List.mem_cons_self)))
  · refine h.apply Operator.isArithmetic_multiply fun p hp => ?_
    rcases List.mem_cons.1 hp with rfl | hp
    · exact he
    · obtain ⟨d, hd, rfl⟩ := List.mem_map.1 hp
      refine h.apply Operator.isArithmetic_power fun q hq => ?_
      simp only [List.mem_cons, List.not_mem_nil, or_false] at hq
      rcases hq with rfl | rfl
      · exact hds _ hd
      · exact Expr.madeOf_num.2 h.minusOne

/-- A sign negates the first number or puts a minus one in front. -/
theorem Gives.negateFactors (h : s.Gives F M) {es : List Expr} (hes : ∀ e ∈ es, e.MadeOf M) :
    ∀ e ∈ negateFactors es, e.MadeOf M := by
  have hone : (Expr.num .minusOne).MadeOf M := Expr.madeOf_num.2 h.minusOne
  unfold Reckoner.negateFactors
  split
  · next n es =>
    have hn := Expr.madeOf_num.1 (hes (.num n) (by simp))
    split
    · next m hm =>
      refine List.forall_mem_cons.2 ⟨Expr.madeOf_num.2 (h.negated hn hm), fun e he => ?_⟩
      exact hes e (by simp [he])
    · exact List.forall_mem_cons.2 ⟨hone, hes⟩
  · exact List.forall_mem_cons.2 ⟨hone, hes⟩

/-! ### Operators between terms -/

variable {term : Reader}

theorem posts_power (h : s.Gives F M) (ht : Posts F term (·.MadeOf M)) :
    Posts F (s.power term) (·.MadeOf M) :=
  Posts.map (Posts.itemAndSeries ht (Posts.onKind ht)) fun _ hp =>
    madeOf_chain hp.1 fun x hx => ⟨hp.2 x hx, h.arithmetic Operator.isArithmetic_power⟩

theorem posts_divisor (h : s.Gives F M) (ht : Posts F term (·.MadeOf M)) (position : Nat) :
    Posts F (s.divisor term position) (·.MadeOf M) := by
  intro ts e r hts hread
  obtain ⟨⟨e', r'⟩, hpower, hread⟩ := except_bind_eq_ok.1 hread
  simp only at hread
  split at hread
  · cases hread
  · cases hread
    exact posts_power h ht ts e r hts hpower

theorem posts_division (h : s.Gives F M) (ht : Posts F term (·.MadeOf M)) :
    Posts F (s.division term) (·.MadeOf M) :=
  Posts.map
    (Posts.itemAndSeries (posts_power h ht) fun t => Posts.onKind (posts_divisor h ht t.start) t)
    fun _ hp => h.quotient hp.1 hp.2

theorem posts_multiplication (h : s.Gives F M) (ht : Posts F term (·.MadeOf M))
    (negative : Bool) : Posts F (s.multiplication term negative) (·.MadeOf M) := by
  refine Posts.map (f := fun p : Expr × List Expr =>
      s.join .multiply (if negative then negateFactors (p.1 :: p.2) else p.1 :: p.2))
    (Posts.itemAndSeries (posts_division h ht) (Posts.onKind (posts_division h ht))) fun p hp => ?_
  have hes : ∀ e ∈ p.1 :: p.2, e.MadeOf M := List.forall_mem_cons.2 hp
  cases negative with
  | true => exact h.join Operator.isArithmetic_multiply (h.negateFactors hes)
  | false => exact h.join Operator.isArithmetic_multiply hes

theorem posts_signedMultiplication (h : s.Gives F M) (ht : Posts F term (·.MadeOf M)) (t : Token)
    (item : Reader) (_ : F t) (hitem : s.signedMultiplication term t = some item) :
    Posts F item (·.MadeOf M) := by
  unfold signedMultiplication at hitem
  split at hitem
  · cases hitem
    exact posts_multiplication h ht false
  · cases hitem
    exact posts_multiplication h ht true
  · cases hitem

theorem posts_leadingMultiplication (h : s.Gives F M) (ht : Posts F term (·.MadeOf M)) :
    Posts F (s.leadingMultiplication term) (·.MadeOf M) := by
  intro ts e r hts hread
  cases ts with
  | nil => exact posts_multiplication h ht false [] e r hts hread
  | cons t rest =>
    simp only [leadingMultiplication] at hread
    split at hread
    · next item hitem =>
      have hitem' := posts_signedMultiplication h ht t item (hts t (by simp)) hitem
      exact Posts.afterToken hitem' (fun t' ht' => hts t' (by simp [ht'])) hread
    · exact posts_multiplication h ht false _ e r hts hread

/-- An expression is made of the material if its terms are. -/
theorem posts_expression (h : s.Gives F M) (ht : Posts F term (·.MadeOf M)) :
    Posts F (s.expression term) (·.MadeOf M) :=
  Posts.map
    (Posts.itemAndSeries (posts_leadingMultiplication h ht) (posts_signedMultiplication h ht))
    fun _ hp => h.join Operator.isArithmetic_add (List.forall_mem_cons.2 hp)

/-! ### Terms -/

theorem forall_mem_closing {missing : Option Token → SyntaxError} {n : Nat} {r r' : Rest n}
    (hr : ∀ t ∈ r.1, F t) (h : closing missing r = .ok r') : ∀ t ∈ r'.1, F t := by
  unfold closing at h
  split at h
  · cases h
  · split at h
    · obtain ⟨-, -, h⟩ := except_bind_eq_ok.1 h
      cases h
      exact fun t ht => hr t (by simp [ht])
    · cases h

variable {item : Reader}

theorem posts_parenthesized (hitem : Posts F item (·.MadeOf M)) (position : Nat) :
    Posts F (parenthesized item position) (·.MadeOf M) := by
  intro ts e r hts h
  obtain ⟨⟨e', r'⟩, he, h⟩ := except_bind_eq_ok.1 h
  obtain ⟨r'', hclose, h⟩ := except_bind_eq_ok.1 h
  cases h
  obtain ⟨hQ, hr'⟩ := hitem ts e r' hts he
  exact ⟨hQ, forall_mem_closing hr' hclose⟩

/-- The parameters of a call are made of the material if expressions are. -/
theorem madeOf_parameters (hitem : Posts F item (·.MadeOf M)) {stop : Nat} {ts : List Token}
    {es : List Expr} {r : Rest (ts.length + 1)} (hts : ∀ t ∈ ts, F t)
    (h : parameters item stop ts = .ok (es, r)) :
    (∀ e ∈ es, e.MadeOf M) ∧ ∀ t ∈ r.1, F t := by
  unfold parameters at h
  simp only at h
  split at h
  · obtain ⟨r', hclose, h⟩ := except_bind_eq_ok.1 h
    cases h
    exact ⟨by simp, forall_mem_closing hts hclose⟩
  · obtain ⟨⟨⟨e, es'⟩, r'⟩, hread, h⟩ := except_bind_eq_ok.1 h
    obtain ⟨r'', hclose, h⟩ := except_bind_eq_ok.1 h
    cases h
    obtain ⟨hQ, hr'⟩ := Posts.itemAndSeries hitem (Posts.onKind hitem) ts _ r' hts hread
    have hr'' := forall_mem_closing hr' hclose
    exact ⟨List.forall_mem_cons.2 hQ, hr''⟩

/-- A name alone gives a symbol, and one with parameters a call. -/
theorem madeOf_named (h : s.Gives F M) (hitem : Posts F item (·.MadeOf M)) {stop position : Nat}
    {cs : List Char} {ts : List Token} {e : Expr} {r : Rest (ts.length + 1)}
    (hname : F ⟨.name cs, position⟩) (hts : ∀ t ∈ ts, F t)
    (hread : s.named item stop (String.ofList cs) position ts = .ok (e, r)) :
    e.MadeOf M ∧ ∀ t ∈ r.1, F t := by
  cases ts with
  | nil =>
    obtain ⟨e', he', hread⟩ := except_bind_eq_ok.1 hread
    cases hread
    exact ⟨h.symbol hname he', by simp⟩
  | cons t rest =>
    simp only [named] at hread
    obtain ⟨e', he', hread⟩ := except_bind_eq_ok.1 hread
    split at hread
    · obtain ⟨-, -, hread⟩ := except_bind_eq_ok.1 hread
      obtain ⟨⟨ps, r'⟩, hps, hread⟩ := except_bind_eq_ok.1 hread
      cases hread
      obtain ⟨hpsM, hr'⟩ := madeOf_parameters hitem (fun t' ht' => hts t' (by simp [ht'])) hps
      exact ⟨Expr.madeOf_app.2 ⟨h.call hname he', hpsM⟩, hr'⟩
    · cases hread
    · cases hread
      exact ⟨h.symbol hname he', hts⟩

/-- By induction on the nesting that is left, every term is made of the material. -/
theorem posts_term (h : s.Gives F M) (stop depth : Nat) :
    Posts F (s.term stop depth) (·.MadeOf M) := by
  induction depth with
  | zero =>
    intro ts e r _ hread
    cases hread
  | succ depth ih =>
    -- terms inside are one level less deep, so the hypothesis covers whole expressions inside
    have hitem := posts_expression h ih
    intro ts e r hts hread
    cases ts with
    | nil => cases hread
    | cons t rest =>
      have ht := hts t (by simp)
      have hrest : ∀ t' ∈ rest, F t' := fun t' ht' => hts t' (by simp [ht'])
      simp only [term, termWith] at hread
      split at hread
      · obtain ⟨⟨e', r'⟩, he', hread⟩ := except_bind_eq_ok.1 hread
        cases hread
        obtain ⟨hM, hr⟩ := Posts.afterToken ih hrest he'
        refine ⟨h.apply Operator.isArithmetic_multiply ?_, hr⟩
        simp [hM, h.minusOne]
      · next cs hlex =>
        obtain ⟨-, -, hread⟩ := except_bind_eq_ok.1 hread
        obtain ⟨lexeme, position⟩ := t
        simp only at hlex
        subst hlex
        exact madeOf_named h hitem ht hrest hread
      · next ds fs hlex =>
        obtain ⟨-, -, hread⟩ := except_bind_eq_ok.1 hread
        obtain ⟨n, hn, hread⟩ := except_bind_eq_ok.1 hread
        cases hread
        obtain ⟨lexeme, position⟩ := t
        simp only at hlex
        subst hlex
        exact ⟨Expr.madeOf_num.2 (h.numeral ht hn), hrest⟩
      · exact Posts.afterToken (posts_parenthesized hitem t.start) hrest hread
      · cases hread

/-! ### Whole texts -/

theorem posts_definition (h : s.Gives F M) {term : Reader} (ht : Posts F term (·.MadeOf M)) :
    Posts F (s.definition term) (·.MadeOf M) := by
  -- the operator of definitions occurs only if an equals sign does
  have hsep : ∀ t item, F t → onKind .equals (s.expression term) t = some item →
      Posts F item fun e => e.MadeOf M ∧ M.operator (s.current (.define s.store)) := by
    intro t item hF hitem ts e r hts hread
    have he := Posts.onKind (posts_expression h ht) t item hF hitem ts e r hts hread
    refine ⟨⟨he.1, ?_⟩, he.2⟩
    obtain ⟨lexeme, position⟩ := t
    cases lexeme with
    | mark kind c =>
      simp only [onKind] at hitem
      split at hitem
      · next hkind =>
        subst hkind
        exact h.definition hF
      · cases hitem
    | _ => cases hitem
  exact Posts.map (Posts.itemAndSeries (posts_expression h ht) hsep) fun _ hp =>
    madeOf_chain hp.1 hp.2

/-- What a text is read to is made of what its lexemes give. -/
theorem madeOf_readWithin (h : s.Gives F M) {depth : Nat} {text : List Char} {e : Expr}
    (htext : ∀ t ∈ tokens text, F t) (hread : s.readWithin depth text = .ok e) : e.MadeOf M := by
  obtain ⟨-, -, hread⟩ := except_bind_eq_ok.1 hread
  obtain ⟨⟨e', r⟩, he', hread⟩ := except_bind_eq_ok.1 hread
  have hM := posts_definition h (posts_term h text.length depth) _ e' r htext he'
  simp only at hread
  split at hread
  · cases hread
    exact hM.1
  · cases hread

end Scope

end Reckoner
