import Reckoner.Grammar.Reader
import Reckoner.Proofs.Grammar.Material

/-!
# Reading in another place

What a text is read to depends on the scope only through what its names mean, and on where it stands
only through the positions in errors. Where two scopes have the same operators, and the variables of
the one are those of the other with other roles, reading the same lexemes gives the same tree with
those roles, or the same error at the other position.
-/

namespace Reckoner

/-! ## Other roles -/

namespace Expr

mutual

/-- The expression with other roles for its symbols. -/
def relabel (role : String → Role → Role) : Expr → Expr
  | .num n => .num n
  | .sym name r => .sym name (role name r)
  | .app op ps => .app op (relabelList role ps)

/-- The expressions with other roles for their symbols. -/
def relabelList (role : String → Role → Role) : List Expr → List Expr
  | [] => []
  | p :: ps => p.relabel role :: relabelList role ps

end

variable (role : String → Role → Role)

theorem relabelList_eq_map (ps : List Expr) : relabelList role ps = ps.map (relabel role) := by
  induction ps with
  | nil => rfl
  | cons p ps ih => rw [relabelList, ih, List.map_cons]

@[simp] theorem relabel_num (n : Number) : (Expr.num n).relabel role = .num n := by
  rw [relabel]

@[simp] theorem relabel_sym (name : String) (r : Role) :
    (Expr.sym name r).relabel role = .sym name (role name r) := by
  rw [relabel]

/-- Other roles leave the operators as they are. -/
@[simp] theorem relabel_app (op : Operator) (ps : List Expr) :
    (Expr.app op ps).relabel role = .app op (ps.map (relabel role)) := by
  rw [relabel, relabelList_eq_map]

theorem eq_num_of_relabel {e : Expr} {n : Number} (h : e.relabel role = .num n) : e = .num n := by
  cases e with
  | num m => rwa [relabel_num] at h
  | sym name r => rw [relabel_sym] at h; cases h
  | app op ps => rw [relabel_app] at h; cases h

/-- In other roles the same divisors are zero. -/
@[simp] theorem isZero_relabel (e : Expr) : (e.relabel role).isZero = e.isZero := by
  cases e with
  | num n => rw [relabel_num]
  | sym name r => rw [relabel_sym]; rfl
  | app op ps => rw [relabel_app]; rfl

end Expr

theorem negateFactors_map (role : String → Role → Role) (es : List Expr) :
    negateFactors (es.map (Expr.relabel role)) = (negateFactors es).map (Expr.relabel role) := by
  cases es with
  | nil => simp [negateFactors]
  | cons e es =>
    cases e with
    | num n =>
      simp only [List.map_cons, Expr.relabel_num, negateFactors]
      cases n.negateExact? with
      | some m => simp
      | none => simp
    | sym name r => simp [negateFactors]
    | app op ps => simp [negateFactors]

/-! ## Other positions -/

/-- The token at another position. -/
def Token.move (g : Nat → Nat) (t : Token) : Token := ⟨t.lexeme, g t.start⟩

/-- The error at another position. -/
def SyntaxError.move (g : Nat → Nat) : SyntaxError → SyntaxError
  | .unidentified c p => .unidentified c (g p)
  | .unexpected c p => .unexpected c (g p)
  | .unexpectedEnd p => .unexpectedEnd (g p)
  | .extraClose p => .extraClose (g p)
  | .missingClose p => .missingClose (g p)
  | .unclosedCall p => .unclosedCall (g p)
  | .divisionByZero p => .divisionByZero (g p)
  | .numeralTooLong ds p => .numeralTooLong ds (g p)
  | .notCallable name p => .notCallable name (g p)
  | .unsupportedOperator name p => .unsupportedOperator name (g p)
  | .tooDeep => .tooDeep

theorem SyntaxError.move_id (e : SyntaxError) : e.move id = e := by
  cases e <;> rfl

/-! ## Results side by side -/

section Results

variable {α β γ δ : Type} {g : Nat → Nat} {V : α → β → Prop} {W : γ → δ → Prop}

/-- Both results are values, and related by `V`, or the second one is the error of the first at the
other position. -/
inductive Moved (g : Nat → Nat) (V : α → β → Prop) :
    Except SyntaxError α → Except SyntaxError β → Prop where
  | ok {a : α} {b : β} (h : V a b) : Moved g V (.ok a) (.ok b)
  | error (e : SyntaxError) : Moved g V (.error e) (.error (e.move g))

/-- Results side by side are followed by results side by side. -/
theorem Moved.bind {x : Except SyntaxError α} {y : Except SyntaxError β}
    {f : α → Except SyntaxError γ} {h : β → Except SyntaxError δ} (hxy : Moved g V x y)
    (hfh : ∀ a b, V a b → Moved g W (f a) (h b)) : Moved g W (x >>= f) (y >>= h) := by
  cases hxy with
  | ok hab => exact hfh _ _ hab
  | error e => exact .error e

/-- The value is carried over by `f`, and the rest of the tokens stands at the other positions. -/
def Taken (g : Nat → Nat) (f : α → β) {m n : Nat} (p : α × Rest m) (q : β × Rest n) : Prop :=
  q.1 = f p.1 ∧ q.2.1 = p.2.1.map (Token.move g)

/-- From tokens at the other positions the second reader takes what the first one takes. -/
def MovesAlong (g : Nat → Nat) (f : α → β) (item : ReaderOf α) (item' : ReaderOf β) : Prop :=
  ∀ ts, Moved g (Taken g f) (item ts) (item' (ts.map (Token.move g)))

/-- The separators are the same, and the second readers take what the first ones take. -/
def SeparatesAlong (g : Nat → Nat) (f : α → β) (separator : Token → Option (ReaderOf α))
    (separator' : Token → Option (ReaderOf β)) : Prop :=
  ∀ t, (separator t = none ∧ separator' (t.move g) = none) ∨
    ∃ item item', separator t = some item ∧ separator' (t.move g) = some item' ∧
      MovesAlong g f item item'

variable {f : α → β} {k : γ → δ}

/-- Moving on fails on both sides at the same token. -/
theorem moved_ready (ts : List Token) :
    Moved g (fun _ _ => True) (ready ts) (ready (ts.map (Token.move g))) := by
  cases ts with
  | nil => exact .ok trivial
  | cons t rest =>
    obtain ⟨lexeme, start⟩ := t
    cases lexeme with
    | stray c => exact .error _
    | name cs => exact .ok trivial
    | numeral ds fs => exact .ok trivial
    | mark kind c => exact .ok trivial

theorem separatesAlong_onKind (kind : LexemeKind) {item : Token → ReaderOf α}
    {item' : Token → ReaderOf β} (h : ∀ t, MovesAlong g f (item t) (item' (t.move g))) :
    SeparatesAlong g f (fun t => onKind kind (item t) t) fun t => onKind kind (item' t) t := by
  rintro ⟨lexeme, start⟩
  cases lexeme with
  | mark c k =>
    by_cases hk : c = kind
    · exact .inr ⟨item _, item' _, if_pos hk, if_pos hk, h _⟩
    · exact .inl ⟨if_neg hk, if_neg hk⟩
  | name cs => exact .inl ⟨rfl, rfl⟩
  | numeral ds fs => exact .inl ⟨rfl, rfl⟩
  | stray c => exact .inl ⟨rfl, rfl⟩

theorem MovesAlong.afterToken {item : ReaderOf α} {item' : ReaderOf β}
    (h : MovesAlong g f item item') (t : Token) (rest : List Token) :
    Moved g (Taken g f) (afterToken item t rest)
      (afterToken item' (t.move g) (rest.map (Token.move g))) := by
  refine (moved_ready rest).bind fun _ _ _ => (h rest).bind fun p q hpq => ?_
  exact .ok ⟨hpq.1, hpq.2⟩

/-- The second repetition takes what the first one takes. The induction is on the rounds of the
first one. -/
theorem SeparatesAlong.series {separator : Token → Option (ReaderOf α)}
    {separator' : Token → Option (ReaderOf β)} (h : SeparatesAlong g f separator separator')
    {n n' : Nat} (ts ts' : List Token) (hts : ts' = ts.map (Token.move g)) (hn : ts.length < n)
    (hn' : ts'.length < n') :
    Moved g (Taken g (List.map f)) (series separator n ts hn) (series separator' n' ts' hn') := by
  subst hts
  induction ts, hn using Reckoner.series.induct separator n with
  | case1 =>
    simp only [List.map_nil]
    rw [Reckoner.series, Reckoner.series]
    exact .ok ⟨rfl, rfl⟩
  | case2 t rest _ hnone =>
    simp only [List.map_cons]
    rcases h t with ⟨-, hnone'⟩ | ⟨item, item', hsome, -⟩
    · rw [Reckoner.series, Reckoner.series]
      simp only [hnone, hnone']
      exact .ok ⟨rfl, rfl⟩
    · cases hnone.symm.trans hsome
  | case3 t rest _ item₁ hitem₁ _ ih =>
    simp only [List.map_cons]
    rcases h t with ⟨hnone, -⟩ | ⟨item, item', hsome, hsome', hitem⟩
    · cases hitem₁.symm.trans hnone
    · rw [Reckoner.series, Reckoner.series]
      simp only [hsome, hsome']
      refine (moved_ready rest).bind fun _ _ _ => (hitem rest).bind fun p q hpq => ?_
      obtain ⟨hvalue, hrest⟩ := hpq
      -- both sides stand at the same tokens again, up to their positions
      obtain ⟨b, r', hr'⟩ := q
      simp only at hrest
      subst hrest
      refine (ih p.2 _).bind fun ps qs hpqs => ?_
      refine .ok ⟨?_, hpqs.2⟩
      show b :: qs.1 = (p.1 :: ps.1).map f
      rw [hpqs.1, List.map_cons]
      exact congrArg (· :: _) hvalue

/-- With an item before the repetition it is the same. -/
theorem MovesAlong.itemAndSeries {item : ReaderOf α} {item' : ReaderOf β}
    {separator : Token → Option (ReaderOf γ)} {separator' : Token → Option (ReaderOf δ)}
    (hitem : MovesAlong g f item item') (hsep : SeparatesAlong g k separator separator') :
    MovesAlong g (fun p : α × List γ => (f p.1, p.2.map k)) (itemAndSeries item separator)
      (itemAndSeries item' separator') := by
  intro ts
  refine (hitem ts).bind fun p q hpq => ?_
  refine (hsep.series p.2.1 q.2.1 hpq.2 _ _).bind fun ps qs hpqs => ?_
  refine .ok ⟨?_, hpqs.2⟩
  show (q.1, qs.1) = (f p.1, ps.1.map k)
  rw [hpq.1, hpqs.1]

/-- What is built on the two sides corresponds if the parts do. -/
theorem MovesAlong.map {item : ReaderOf α} {item' : ReaderOf β} (h : MovesAlong g f item item')
    (build : α → γ) (build' : β → δ) (hbuild : ∀ a, build' (f a) = k (build a)) :
    MovesAlong g k (fun ts => do let (a, r) ← item ts; return (build a, r))
      (fun ts => do let (b, r) ← item' ts; return (build' b, r)) := by
  intro ts
  refine (h ts).bind fun p q hpq => ?_
  refine .ok ⟨?_, hpq.2⟩
  show build' q.1 = k (build p.1)
  rw [hpq.1, hbuild]

end Results

/-! ## Scopes side by side -/

namespace Scope

/-- The role of a variable in a text that is read in the scope. -/
def roleOf (s : Scope) (name : String) : Role :=
  if s.isDefined name then .stored s.store else .free

/-- A name that is not in upper case is read as a symbol in its role. -/
theorem symbol_of_variable {s : Scope} {name : String} (h : Text.allUpper name = false)
    (position : Nat) : s.symbol name position = .ok (.sym name (s.roleOf name)) := by
  unfold symbol roleOf
  rw [h]
  by_cases hdef : s.isDefined name = true
  · simp [hdef]
  · simp [hdef, Expr.free]

/-- The scopes have the same operators and belong to the same registry, and the variables of the
second one have the roles that relabelling gives to those of the first one. -/
structure Relabels (role : String → Role → Role) (s s' : Scope) : Prop where
  operators : s'.operator? = s.operator?
  store : s'.store = s.store
  operator : ∀ name op, role name (.operator op) = .operator op
  roles : ∀ name, role name (s.roleOf name) = s'.roleOf name

variable {role : String → Role → Role} {s s' : Scope} {g : Nat → Nat} {term term' : Reader}

/-! ### Trees that the grammar builds -/

theorem Relabels.apply (h : Relabels role s s') (op : Operator) (ps : List Expr) :
    s'.apply op (ps.map (Expr.relabel role)) = (s.apply op ps).relabel role := by
  have hcurrent : s'.current op = s.current op := by
    unfold current
    rw [h.operators]
  unfold Scope.apply
  rw [hcurrent, Expr.relabel_app]

theorem Relabels.join (h : Relabels role s s') (op : Operator) (es : List Expr) :
    s'.join op (es.map (Expr.relabel role)) = (s.join op es).relabel role := by
  unfold Scope.join
  cases es with
  | nil => exact h.apply op []
  | cons e es =>
    cases es with
    | nil => rfl
    | cons e' es => exact h.apply op (e :: e' :: es)

theorem Relabels.chain (h : Relabels role s s') (op : Operator) (e : Expr) (es : List Expr) :
    s'.chain op (e.relabel role) (es.map (Expr.relabel role)) =
      (s.chain op e es).relabel role := by
  unfold Scope.chain
  induction es generalizing e with
  | nil => rfl
  | cons x es ih =>
    have happly := h.apply op [e, x]
    rw [List.map_cons, List.foldl_cons, List.foldl_cons, ← ih]
    exact congrArg (fun l => List.foldl _ l _) happly

theorem Relabels.reciprocal (h : Relabels role s s') (d : Expr) :
    s'.apply .power [d.relabel role, .num .minusOne] =
      (s.apply .power [d, .num .minusOne]).relabel role := by
  have happly := h.apply .power [d, .num .minusOne]
  simpa using happly

/-- Divisions are built alike: which parts are integers does not depend on roles. -/
theorem Relabels.quotient (h : Relabels role s s') (e : Expr) (ds : List Expr) :
    s'.quotient (e.relabel role) (ds.map (Expr.relabel role)) =
      (s.quotient e ds).relabel role := by
  have hproduct : ∀ es : List Expr,
      s'.apply .multiply (e.relabel role :: (es.map (Expr.relabel role)).map fun d =>
          s'.apply .power [d, .num .minusOne]) =
        (s.apply .multiply (e :: es.map fun d =>
          s.apply .power [d, .num .minusOne])).relabel role := by
    intro es
    rw [← h.apply, List.map_cons, List.map_map, List.map_map]
    congr 2
    exact List.map_congr_left fun d _ => h.reciprocal d
  unfold Scope.quotient
  split
  · next hmap =>
    obtain rfl := List.map_eq_nil_iff.1 hmap
    rfl
  · next a b he hmap =>
    obtain ⟨d, rfl, hd⟩ := List.map_eq_singleton_iff.1 hmap
    obtain rfl := Expr.eq_num_of_relabel role he
    obtain rfl := Expr.eq_num_of_relabel role hd
    simp only [Expr.relabel_num]
  · next hnil hnums =>
    split
    · exact absurd rfl hnil
    · next a b => exact (hnums a b (Expr.relabel_num role _) (by simp)).elim
    · exact hproduct ds

/-! ### Operators between terms -/

section Terms

variable (h : Relabels role s s') (ht : MovesAlong g (Expr.relabel role) term term')

include h ht

theorem movesAlong_power : MovesAlong g (Expr.relabel role) (s.power term) (s'.power term') :=
  (ht.itemAndSeries (separatesAlong_onKind .caret fun _ => ht)).map
    (fun p => s.chain .power p.1 p.2) (fun p => s'.chain .power p.1 p.2)
    fun p => h.chain .power p.1 p.2

theorem movesAlong_divisor (position : Nat) :
    MovesAlong g (Expr.relabel role) (s.divisor term position)
      (s'.divisor term' (g position)) := by
  intro ts
  refine (movesAlong_power h ht ts).bind fun p q hpq => ?_
  simp only
  rw [hpq.1, Expr.isZero_relabel]
  split
  · exact .error _
  · exact .ok ⟨rfl, hpq.2⟩

theorem movesAlong_division :
    MovesAlong g (Expr.relabel role) (s.division term) (s'.division term') :=
  ((movesAlong_power h ht).itemAndSeries (separatesAlong_onKind .slash fun t =>
    movesAlong_divisor h ht t.start)).map
    (fun p => s.quotient p.1 p.2) (fun p => s'.quotient p.1 p.2) fun p => h.quotient p.1 p.2

/-- Multiplications are read alike on both sides if terms are. -/
theorem movesAlong_multiplication (negative : Bool) :
    MovesAlong g (Expr.relabel role) (s.multiplication term negative)
      (s'.multiplication term' negative) := by
  have hitem := movesAlong_division h ht
  refine (hitem.itemAndSeries (separatesAlong_onKind .star fun _ => hitem)).map
    (fun p => s.join .multiply (if negative then negateFactors (p.1 :: p.2) else p.1 :: p.2))
    (fun p => s'.join .multiply (if negative then negateFactors (p.1 :: p.2) else p.1 :: p.2))
    fun p => ?_
  show s'.join .multiply (if negative then negateFactors ((p.1 :: p.2).map (Expr.relabel role))
    else (p.1 :: p.2).map (Expr.relabel role)) = _
  rw [← h.join, negateFactors_map]
  cases negative with
  | true => rfl
  | false => rfl

theorem separatesAlong_signed :
    SeparatesAlong g (Expr.relabel role) (s.signedMultiplication term)
      (s'.signedMultiplication term') := by
  rintro ⟨lexeme, start⟩
  simp only [signedMultiplication, Token.move]
  split
  · exact .inr ⟨_, _, rfl, rfl, movesAlong_multiplication h ht false⟩
  · exact .inr ⟨_, _, rfl, rfl, movesAlong_multiplication h ht true⟩
  · exact .inl ⟨rfl, rfl⟩

theorem movesAlong_leading :
    MovesAlong g (Expr.relabel role) (s.leadingMultiplication term)
      (s'.leadingMultiplication term') := by
  intro ts
  cases ts with
  | nil => exact movesAlong_multiplication h ht false []
  | cons t rest =>
    rw [List.map_cons]
    unfold leadingMultiplication
    rcases separatesAlong_signed h ht t with
      ⟨hnone, hnone'⟩ | ⟨item, item', hsome, hsome', hitem⟩
    · simp only [hnone, hnone']
      exact movesAlong_multiplication h ht false (t :: rest)
    · simp only [hsome, hsome']
      exact hitem.afterToken t rest

/-- Expressions are read alike on both sides if terms are. -/
theorem movesAlong_expression :
    MovesAlong g (Expr.relabel role) (s.expression term) (s'.expression term') :=
  ((movesAlong_leading h ht).itemAndSeries (separatesAlong_signed h ht)).map
    (fun p => s.join .add (p.1 :: p.2)) (fun p => s'.join .add (p.1 :: p.2))
    fun p => h.join .add (p.1 :: p.2)

theorem movesAlong_definition :
    MovesAlong g (Expr.relabel role) (s.definition term) (s'.definition term') := by
  have hitem := movesAlong_expression h ht
  have hchain := fun p : Expr × List Expr => h.chain (.define s.store) p.1 p.2
  unfold definition
  rw [h.store]
  exact (hitem.itemAndSeries (separatesAlong_onKind .equals fun _ => hitem)).map
    (fun p => s.chain (.define s.store) p.1 p.2) (fun p => s'.chain (.define s.store) p.1 p.2)
    hchain

end Terms

/-! ### Terms -/

/-- The two rests are the same tokens, at the other positions. -/
def SameRest (g : Nat → Nat) {m n : Nat} (r : Rest m) (r' : Rest n) : Prop :=
  r'.1 = r.1.map (Token.move g)

theorem moved_closing {missing missing' : Option Token → SyntaxError}
    (hmissing : ∀ t, missing' (t.map (Token.move g)) = (missing t).move g) {m n : Nat} {r : Rest m}
    {r' : Rest n} (hr : SameRest g r r') :
    Moved g (SameRest g) (closing missing r) (closing missing' r') := by
  obtain ⟨ts, hts⟩ := r
  obtain ⟨ts', hts'⟩ := r'
  obtain rfl : ts' = ts.map (Token.move g) := hr
  cases ts with
  | nil =>
    show Moved g _ (.error (missing none)) (.error (missing' (Option.map (Token.move g) none)))
    rw [hmissing]
    exact .error _
  | cons t rest =>
    obtain ⟨lexeme, start⟩ := t
    simp only [closing, List.map_cons, Token.move]
    split
    · exact (moved_ready rest).bind fun _ _ _ => .ok rfl
    · have herror := hmissing (some ⟨lexeme, start⟩)
      rw [Option.map_some, Token.move] at herror
      rw [herror]
      exact .error _

variable {item item' : Reader}

theorem movesAlong_parenthesized (hitem : MovesAlong g (Expr.relabel role) item item')
    (position : Nat) :
    MovesAlong g (Expr.relabel role) (parenthesized item position)
      (parenthesized item' (g position)) := by
  intro ts
  refine (hitem ts).bind fun p q hpq => ?_
  refine (moved_closing (fun _ => rfl) hpq.2).bind fun r r' hr => ?_
  exact .ok ⟨hpq.1, hr⟩

/-- Parameters are read alike on both sides if expressions are. -/
theorem moved_parameters (hitem : MovesAlong g (Expr.relabel role) item item') (stop : Nat)
    (ts : List Token) :
    Moved g (Taken g (List.map (Expr.relabel role))) (parameters item stop ts)
      (parameters item' (g stop) (ts.map (Token.move g))) := by
  have hunclosed : ∀ t : Option Token,
      SyntaxError.unclosedCall ((t.map (Token.move g)).elim (g stop) Token.start) =
        (SyntaxError.unclosedCall (t.elim stop Token.start)).move g := by
    intro t
    cases t with
    | none => rfl
    | some t => rfl
  have hhead : (ts.map (Token.move g)).head?.map Token.lexeme = ts.head?.map Token.lexeme := by
    cases ts with
    | nil => rfl
    | cons t rest => rfl
  have hrest : SameRest g (⟨ts, Nat.lt_succ_self _⟩ : Rest (ts.length + 1))
      (⟨ts.map (Token.move g), Nat.lt_succ_self _⟩ : Rest ((ts.map (Token.move g)).length + 1)) :=
    rfl
  have hsep : SeparatesAlong g (Expr.relabel role) (onKind .comma item) (onKind .comma item') :=
    separatesAlong_onKind .comma fun _ => hitem
  simp only [parameters, hhead]
  split
  · exact (moved_closing hunclosed hrest).bind fun r r' hr => .ok ⟨rfl, hr⟩
  · refine (hitem.itemAndSeries hsep ts).bind fun p q hpq => ?_
    refine (moved_closing hunclosed hpq.2).bind fun r r' hr => ?_
    refine .ok ⟨?_, hr⟩
    show q.1.1 :: q.1.2 = (p.1.1 :: p.1.2).map (Expr.relabel role)
    rw [hpq.1, List.map_cons]

/-- What a name means is relabelled, and only the names of operators have the role of one. -/
theorem Relabels.moved_symbol (h : Relabels role s s') (name : String) (position : Nat) :
    Moved g (fun e e' => e' = e.relabel role ∧
        ((∃ n op, e = .sym n (.operator op)) ∨
          ∃ n r r', e = .sym n r ∧ e' = .sym n r' ∧ (∀ op, r ≠ .operator op) ∧
            ∀ op, r' ≠ .operator op))
      (s.symbol name position) (s'.symbol name (g position)) := by
  have hrole : ∀ s : Scope, ∀ op, s.roleOf name ≠ .operator op := by
    intro s op
    unfold roleOf
    split
    · exact fun heq => by cases heq
    · exact fun heq => by cases heq
  by_cases hupper : Text.allUpper name = true
  · unfold symbol
    rw [if_pos hupper, if_pos hupper, h.operators]
    cases s.operator? name with
    | none => exact .error _
    | some op =>
      refine .ok ⟨?_, .inl ⟨op.name, op, rfl⟩⟩
      rw [Expr.ofOperator, Expr.relabel_sym, h.operator]
  · have hlower : Text.allUpper name = false := by simpa using hupper
    rw [symbol_of_variable hlower, symbol_of_variable hlower]
    refine .ok ⟨?_, .inr ⟨name, _, _, rfl, rfl, hrole s, hrole s'⟩⟩
    rw [Expr.relabel_sym, h.roles]

theorem named_of_error {name : String} {position : Nat} {err : SyntaxError}
    (h : s.symbol name position = .error err) (item : Reader) (stop : Nat) (ts : List Token) :
    s.named item stop name position ts = .error err := by
  cases ts with
  | nil => simp only [named, h]; rfl
  | cons t rest => simp only [named, h]; rfl

/-- After the name of an operator an opening parenthesis starts a call. -/
theorem named_call {name n : String} {position : Nat} {op : Operator}
    (h : s.symbol name position = .ok (.sym n (.operator op))) (item : Reader) (stop start : Nat)
    (c : Char) (rest : List Token) :
    s.named item stop name position (⟨.mark .opening c, start⟩ :: rest) = (do
      ready rest
      let (params, r) ← parameters item stop rest
      return (.app op params, r.weaken (Nat.le_succ _))) := by
  simp only [named, h]
  rfl

/-- After any other name an opening parenthesis is an error, at the place of the name. -/
theorem named_not_callable {name : String} {position : Nat} {e : Expr}
    (h : s.symbol name position = .ok e) (he : ∀ n op, e ≠ .sym n (.operator op)) (item : Reader)
    (stop start : Nat) (c : Char) (rest : List Token) :
    s.named item stop name position (⟨.mark .opening c, start⟩ :: rest) =
      .error (.notCallable name position) := by
  simp only [named, h]
  cases e with
  | num m => rfl
  | app op ps => rfl
  | sym n r =>
    cases r with
    | operator op => exact absurd rfl (he n op)
    | free => rfl
    | stored id => rfl

theorem named_alone {name : String} {position : Nat} {e : Expr}
    (h : s.symbol name position = .ok e) (item : Reader) (stop : Nat) {t : Token}
    (ht : ∀ c, t.lexeme ≠ .mark .opening c) (rest : List Token) :
    s.named item stop name position (t :: rest) =
      .ok (e, ⟨t :: rest, Nat.lt_succ_self _⟩) := by
  simp only [named, h, bind, Except.bind]
  split
  · next hlexeme => exact absurd hlexeme (ht _)
  · next hlexeme _ => exact absurd hlexeme (ht _)
  · rfl

/-- A name, with what follows it, is read alike on both sides. -/
theorem moved_named (h : Relabels role s s') (hitem : MovesAlong g (Expr.relabel role) item item')
    (stop : Nat) (name : String) (position : Nat) (ts : List Token) :
    Moved g (Taken g (Expr.relabel role)) (s.named item stop name position ts)
      (s'.named item' (g stop) name (g position) (ts.map (Token.move g))) := by
  have hmoved := h.moved_symbol (g := g) name position
  generalize hx : s.symbol name position = x at hmoved
  generalize hx' : s'.symbol name (g position) = x' at hmoved
  cases hmoved with
  | error err =>
    rw [named_of_error hx, named_of_error hx']
    exact .error err
  | @ok e e' hsymbol =>
    obtain ⟨rfl, hkinds⟩ := hsymbol
    cases ts with
    | nil =>
      simp only [named, hx, hx']
      exact .ok ⟨rfl, rfl⟩
    | cons t rest =>
      by_cases hopening : ∃ c, t.lexeme = .mark .opening c
      · obtain ⟨lexeme, start⟩ := t
        obtain ⟨c, rfl⟩ := hopening
        rw [List.map_cons, Token.move]
        -- a name that stands for an operator on one side does so on the other
        rcases hkinds with ⟨n, op, rfl⟩ | ⟨n, r, r', rfl, heq, hr, hr'⟩
        · rw [Expr.relabel_sym, h.operator] at hx'
          rw [named_call hx, named_call hx']
          refine (moved_ready rest).bind fun _ _ _ => ?_
          refine (moved_parameters hitem stop rest).bind fun p q hpq => ?_
          refine .ok ⟨?_, hpq.2⟩
          show Expr.app op q.1 = (Expr.app op p.1).relabel role
          rw [Expr.relabel_app, hpq.1]
        · rw [heq] at hx'
          rw [named_not_callable hx fun _ op heq => hr op (by cases heq; rfl),
            named_not_callable hx' fun _ op heq => hr' op (by cases heq; rfl)]
          exact .error _
      · have hplain : ∀ c, t.lexeme ≠ .mark .opening c := fun c hc => hopening ⟨c, hc⟩
        rw [List.map_cons, named_alone hx item stop hplain,
          named_alone hx' item' (g stop) (t := t.move g) hplain]
        exact .ok ⟨rfl, rfl⟩

theorem moved_readNumeral (position : Nat) (ds : List Char) (fs : Option (List Char)) :
    Moved g (fun n m => m = n) (readNumeral position ds fs) (readNumeral (g position) ds fs) := by
  cases fs with
  | some fs => exact .ok rfl
  | none =>
    unfold readNumeral
    simp only
    split
    · exact .error _
    · exact .ok rfl

theorem unexpected_move (t : Token) : unexpected (t.move g) = (unexpected t).move g := by
  obtain ⟨lexeme, start⟩ := t
  simp only [unexpected, Token.move]
  split
  · rfl
  · rfl
  · rfl

/-- Terms are read alike on both sides, however deep they nest. -/
theorem movesAlong_term (h : Relabels role s s') (stop depth : Nat) :
    MovesAlong g (Expr.relabel role) (s.term stop depth) (s'.term (g stop) depth) := by
  induction depth with
  | zero => exact fun ts => .error .tooDeep
  | succ depth ih =>
    have hexpression := movesAlong_expression h ih
    intro ts
    cases ts with
    | nil => exact .error (.unexpectedEnd stop)
    | cons t rest =>
      -- the token is taken apart below, so what is known about it is brought out before
      have hunexpected := unexpected_move (g := g) t
      have hafter := ih.afterToken t rest
      have hgroup := (movesAlong_parenthesized hexpression t.start).afterToken t rest
      obtain ⟨lexeme, start⟩ := t
      simp only [Token.move] at hunexpected hafter hgroup
      rw [List.map_cons]
      simp only [term, termWith, Token.move]
      split
      · refine hafter.bind fun p q hpq => ?_
        refine .ok ⟨?_, hpq.2⟩
        show s'.apply .multiply [.num .minusOne, q.1] = _
        have happly := h.apply .multiply [.num .minusOne, p.1]
        rw [hpq.1, ← happly]
        simp
      · refine (moved_ready rest).bind fun _ _ _ => ?_
        exact moved_named h hexpression stop _ start rest
      · refine (moved_ready rest).bind fun _ _ _ => ?_
        refine (moved_readNumeral start _ _).bind fun n m hnm => ?_
        subst hnm
        exact .ok ⟨(Expr.relabel_num role _).symm, rfl⟩
      · exact hgroup
      · rw [hunexpected]
        exact .error _

/-! ### Whole texts -/

/-- Where the variables of a scope have other roles, every text is read to the same tree with those
roles, or fails with the same error. -/
theorem Relabels.readWithin (h : Relabels role s s') (depth : Nat) (text : List Char) :
    s'.readWithin depth text = (s.readWithin depth text).map (Expr.relabel role) := by
  have hmoved : Moved id (fun e e' => e' = e.relabel role) (s.readWithin depth text)
      (s'.readWithin depth text) := by
    have hready := moved_ready (g := id) (tokens text)
    have hdefinition := movesAlong_definition h
      (movesAlong_term (g := id) h text.length depth) (tokens text)
    have hmap : (tokens text).map (Token.move id) = tokens text := List.map_id _
    rw [hmap] at hready hdefinition
    unfold Scope.readWithin
    refine hready.bind fun _ _ _ => hdefinition.bind fun p q hpq => ?_
    obtain ⟨e, ts, hts⟩ := p
    obtain ⟨e', ts', hts'⟩ := q
    obtain ⟨rfl, hrest⟩ := hpq
    obtain rfl : ts' = ts := hrest.trans (List.map_id _)
    cases ts' with
    | nil => exact .ok rfl
    | cons t rest =>
      have herror : Moved id (fun e e' => e' = Expr.relabel role e) (.error (unexpected t))
          (.error ((unexpected t).move id)) := .error _
      rwa [SyntaxError.move_id] at herror
  generalize s.readWithin depth text = x at hmoved
  generalize s'.readWithin depth text = x' at hmoved
  cases hmoved with
  | ok heq => rw [heq]; rfl
  | error e => rw [SyntaxError.move_id]; rfl

end Scope

end Reckoner
