import Reckoner.Proofs.Grammar.Soundness
import Reckoner.Proofs.Grammar.Splitting
import Reckoner.Proofs.Grammar.Unambiguous

/-!
# The language that is read

A text is read exactly when its lexemes can be derived, and to what the derivation gives. The limit
on nesting is the one exception, and it shows: a reader with a greater depth gives the same wherever
the reader with the smaller one does not complain about nesting.
-/

namespace Reckoner

open Grammar

/-! ## Greater depths -/

/-- The second result is the first one, unless that complains about nesting. -/
def Deepens {α : Type} (x y : Except SyntaxError α) : Prop := x ≠ .error .tooDeep → y = x

section Readers

variable {α β : Type}

theorem deepens_refl (x : Except SyntaxError α) : Deepens x x := fun _ => rfl

/-- The second result goes on as the first one does, for as long as that does not complain about
nesting. -/
theorem Deepens.bind {x y : Except SyntaxError α} {f g : α → Except SyntaxError β}
    (hxy : Deepens x y) (hfg : ∀ a, Deepens (f a) (g a)) : Deepens (x >>= f) (y >>= g) := by
  intro h
  cases x with
  | error e =>
    have hx : y = .error e := hxy fun heq => h (by rw [heq]; rfl)
    rw [hx]
    rfl
  | ok a =>
    have hx : y = .ok a := hxy (by simp)
    rw [hx]
    exact hfg a h

/-- The second reader goes deeper than the first. -/
def ReadsDeeper (item item' : ReaderOf α) : Prop := ∀ ts, Deepens (item ts) (item' ts)

/-- The separators are the same, and the second readers go deeper. -/
def SeparatesDeeper (separator separator' : Token → Option (ReaderOf β)) : Prop :=
  ∀ t, (separator t = none ∧ separator' t = none) ∨
    ∃ item item', separator t = some item ∧ separator' t = some item' ∧ ReadsDeeper item item'

theorem separatesDeeper_onKind (kind : LexemeKind) {item item' : Token → ReaderOf β}
    (h : ∀ t, ReadsDeeper (item t) (item' t)) :
    SeparatesDeeper (fun t => onKind kind (item t) t) (fun t => onKind kind (item' t) t) := by
  rintro ⟨lexeme, start⟩
  cases lexeme with
  | mark k c =>
    by_cases hk : k = kind
    · exact .inr ⟨item _, item' _, if_pos hk, if_pos hk, h _⟩
    · exact .inl ⟨if_neg hk, if_neg hk⟩
  | name cs => exact .inl ⟨rfl, rfl⟩
  | numeral ds fs => exact .inl ⟨rfl, rfl⟩
  | stray c => exact .inl ⟨rfl, rfl⟩

theorem ReadsDeeper.afterToken {item item' : ReaderOf α} (h : ReadsDeeper item item') (t : Token)
    (rest : List Token) : Deepens (afterToken item t rest) (afterToken item' t rest) := by
  refine (deepens_refl _).bind fun _ => ?_
  exact (h rest).bind fun _ => deepens_refl _

/-- A repetition of deeper items goes deeper. -/
theorem SeparatesDeeper.series {separator separator' : Token → Option (ReaderOf β)}
    (h : SeparatesDeeper separator separator') {n : Nat} (ts : List Token) (hn : ts.length < n) :
    Deepens (series separator n ts hn) (series separator' n ts hn) := by
  induction ts, hn using Reckoner.series.induct separator n with
  | case1 =>
    rw [Reckoner.series, Reckoner.series]
    exact deepens_refl _
  | case2 t rest _ hnone =>
    rcases h t with ⟨-, hnone'⟩ | ⟨item, item', hsome, -⟩
    · rw [Reckoner.series, Reckoner.series]
      simp only [hnone, hnone']
      exact deepens_refl _
    · cases hnone.symm.trans hsome
  | case3 t rest _ item₁ hitem₁ _ ih =>
    rcases h t with ⟨hnone, -⟩ | ⟨item, item', hsome, hsome', hitem⟩
    · cases hitem₁.symm.trans hnone
    · rw [Reckoner.series, Reckoner.series]
      simp only [hsome, hsome']
      refine (deepens_refl _).bind fun _ => (hitem rest).bind fun p => ?_
      exact (ih p.2).bind fun _ => deepens_refl _

theorem ReadsDeeper.itemAndSeries {item item' : ReaderOf α}
    {separator separator' : Token → Option (ReaderOf β)} (hitem : ReadsDeeper item item')
    (hsep : SeparatesDeeper separator separator') :
    ReadsDeeper (itemAndSeries item separator) (itemAndSeries item' separator') := by
  intro ts
  refine (hitem ts).bind fun p => ?_
  exact (hsep.series p.2.1 p.2.2).bind fun _ => deepens_refl _

theorem ReadsDeeper.map {item item' : ReaderOf α} (h : ReadsDeeper item item') (f : α → β) :
    ReadsDeeper (fun ts => do let (a, r) ← item ts; return (f a, r))
      (fun ts => do let (a, r) ← item' ts; return (f a, r)) :=
  fun ts => (h ts).bind fun _ => deepens_refl _

end Readers

namespace Scope

variable {s : Scope} {term term' : Reader}

theorem readsDeeper_power (h : ReadsDeeper term term') :
    ReadsDeeper (s.power term) (s.power term') :=
  (h.itemAndSeries (separatesDeeper_onKind .caret fun _ => h)).map fun p => s.chain .power p.1 p.2

theorem readsDeeper_divisor (h : ReadsDeeper term term') (position : Nat) :
    ReadsDeeper (s.divisor term position) (s.divisor term' position) :=
  fun ts => (readsDeeper_power h ts).bind fun _ => deepens_refl _

theorem readsDeeper_division (h : ReadsDeeper term term') :
    ReadsDeeper (s.division term) (s.division term') :=
  ((readsDeeper_power h).itemAndSeries (separatesDeeper_onKind .slash fun t =>
    readsDeeper_divisor h t.start)).map fun p => s.quotient p.1 p.2

theorem readsDeeper_multiplication (h : ReadsDeeper term term') (negative : Bool) :
    ReadsDeeper (s.multiplication term negative) (s.multiplication term' negative) :=
  ((readsDeeper_division h).itemAndSeries (separatesDeeper_onKind .star fun _ =>
    readsDeeper_division h)).map fun p =>
      s.join .multiply (if negative then negateFactors (p.1 :: p.2) else p.1 :: p.2)

theorem separatesDeeper_signed (h : ReadsDeeper term term') :
    SeparatesDeeper (s.signedMultiplication term) (s.signedMultiplication term') := by
  intro t
  unfold signedMultiplication
  split
  · exact .inr ⟨_, _, rfl, rfl, readsDeeper_multiplication h false⟩
  · exact .inr ⟨_, _, rfl, rfl, readsDeeper_multiplication h true⟩
  · exact .inl ⟨rfl, rfl⟩

theorem readsDeeper_leading (h : ReadsDeeper term term') :
    ReadsDeeper (s.leadingMultiplication term) (s.leadingMultiplication term') := by
  intro ts
  cases ts with
  | nil => exact readsDeeper_multiplication h false []
  | cons t rest =>
    unfold leadingMultiplication
    rcases separatesDeeper_signed (s := s) h t with
      ⟨hnone, hnone'⟩ | ⟨item, item', hsome, hsome', hitem⟩
    · simp only [hnone, hnone']
      exact readsDeeper_multiplication h false _
    · simp only [hsome, hsome']
      exact hitem.afterToken t rest

/-- Expressions are read deeper if terms are. -/
theorem readsDeeper_expression (h : ReadsDeeper term term') :
    ReadsDeeper (s.expression term) (s.expression term') :=
  ((readsDeeper_leading h).itemAndSeries (separatesDeeper_signed h)).map fun p =>
    s.join .add (p.1 :: p.2)

theorem readsDeeper_parenthesized (h : ReadsDeeper term term') (position : Nat) :
    ReadsDeeper (parenthesized term position) (parenthesized term' position) :=
  fun ts => (h ts).bind fun _ => deepens_refl _

theorem deepens_parameters (h : ReadsDeeper term term') (stop : Nat) (ts : List Token) :
    Deepens (parameters term stop ts) (parameters term' stop ts) := by
  simp only [parameters]
  split
  · exact deepens_refl _
  · have hall := h.itemAndSeries (separatesDeeper_onKind .comma fun _ => h)
    exact (hall ts).bind fun _ => deepens_refl _

theorem deepens_named (h : ReadsDeeper term term') (stop : Nat) (name : String) (position : Nat)
    (ts : List Token) :
    Deepens (s.named term stop name position ts) (s.named term' stop name position ts) := by
  cases ts with
  | nil => exact deepens_refl _
  | cons t rest =>
    simp only [named]
    refine (deepens_refl _).bind fun e => ?_
    split
    · refine (deepens_refl _).bind fun _ => ?_
      exact (deepens_parameters h stop rest).bind fun _ => deepens_refl _
    · exact deepens_refl _
    · exact deepens_refl _

/-- Terms are read deeper with a greater depth. The induction is on the smaller one. -/
theorem readsDeeper_term (s : Scope) (stop : Nat) {m n : Nat} (hmn : m ≤ n) :
    ReadsDeeper (s.term stop m) (s.term stop n) := by
  induction m generalizing n with
  | zero => exact fun ts h => absurd rfl h
  | succ m ih =>
    obtain ⟨n, rfl⟩ := Nat.exists_eq_add_of_le' (show 1 ≤ n by omega)
    have hterm := ih (n := n) (by omega)
    have hexpression := readsDeeper_expression (s := s) hterm
    intro ts
    cases ts with
    | nil => exact deepens_refl _
    | cons t rest =>
      simp only [term, termWith]
      split
      · exact (hterm.afterToken t rest).bind fun _ => deepens_refl _
      · exact (deepens_refl _).bind fun _ => deepens_named hexpression stop _ _ _
      · exact deepens_refl _
      · exact (readsDeeper_parenthesized hexpression t.start).afterToken t rest
      · exact deepens_refl _

/-- With a greater depth a text gives the same, unless the smaller one was too small. -/
theorem deepens_readWithin (s : Scope) {m n : Nat} (hmn : m ≤ n) (text : List Char) :
    Deepens (s.readWithin m text) (s.readWithin n text) := by
  have hterm := readsDeeper_term s text.length hmn
  have hexpression := readsDeeper_expression (s := s) hterm
  have hdefinition := (hexpression.itemAndSeries (separatesDeeper_onKind .equals fun _ =>
    hexpression)).map fun p => s.chain (.define s.store) p.1 p.2
  refine (deepens_refl _).bind fun _ => ?_
  exact (hdefinition (tokens text)).bind fun _ => deepens_refl _

/-! ## What the rules make of the parts -/

/-- Several parts become parameters of the operator, a part by itself stays as it is. -/
def joined (s : Scope) (op : Operator) (e : Expr) (es : List Expr) : Expr :=
  if es.isEmpty then e else s.apply op (e :: es)

/-- What a minus sign makes of the factor behind it, the first factor and then the others: an exact
number changes its sign, and anything else gets a factor `-1` before it. -/
def negatedFactor : Expr → Expr × List Expr
  | .num (.integer n) => (.int (-n), [])
  | .num (.fraction q) => (.num (.fraction (-q)), [])
  | .num .unit => (.int (-1), [])
  | e => (.num .minusOne, [e])

/-- The trees of the phrases. A name in upper case has to be registered, only such a name can be
called, an integer numeral has at most `maxDecimalDigits` digits, and a divisor is no literal zero.
A single division of integers is a ratio, and other divisions are products with reciprocals. -/
def trees (s : Scope) : Actions Expr where
  name cs e :=
    if Text.allUpper (String.ofList cs) then
      ∃ op, s.operator? (String.ofList cs) = some op ∧ e = .ofOperator op
    else
      e = .sym (String.ofList cs) (if s.isDefined (String.ofList cs) then .stored s.store else .free)
  call cs es e :=
    Text.allUpper (String.ofList cs) = true ∧
      ∃ op, s.operator? (String.ofList cs) = some op ∧ e = .app op es
  numeral
    | ds, none, e => ds.length ≤ maxDecimalDigits ∧ e = .int (digitsValue ds)
    | ds, some fs, e =>
      e = .num (.double (Binary64.ofQuotient (digitsValue (ds ++ fs)) (Nat.pow 10 fs.length)))
  negative e := s.apply .multiply [.num .minusOne, e]
  power b es := es.foldl (fun l r => s.apply .power [l, r]) b
  divisor e := e.isZero = false
  division e ds :=
    match ds, e with
    | [], e => e
    | [.num (.integer b)], .num (.integer a) => .num (.fraction (Rat.divInt a b))
    | ds, e => s.apply .multiply (e :: ds.map fun d => s.apply .power [d, .num .minusOne])
  multiplication negative e es :=
    let factors := if negative then negatedFactor e else (e, [])
    s.joined .multiply factors.1 (factors.2 ++ es)
  expression := s.joined .add
  definition e es := es.foldl (fun l r => s.apply (.define s.store) [l, r]) e

/-- What a name means by itself does not depend on where it stands. -/
theorem symbol_iff {name : String} {e : Expr} : (∀ position, s.symbol name position = .ok e) ↔
    if Text.allUpper name then ∃ op, s.operator? name = some op ∧ e = .ofOperator op
    else e = .sym name (if s.isDefined name then .stored s.store else .free) := by
  unfold symbol
  by_cases hupper : Text.allUpper name = true
  · simp only [hupper, if_true]
    cases s.operator? name with
    | none => simp
    | some op => simp [eq_comm]
  · simp only [hupper]
    by_cases hdef : s.isDefined name = true
    · simp [hdef, eq_comm]
    · simp [hdef, Expr.free, eq_comm]

theorem actions_name (cs : List Char) (e : Expr) : s.actions.name cs e ↔ s.trees.name cs e :=
  symbol_iff

/-- What can be called is what has an operator under its name. -/
theorem actions_call (cs : List Char) (es : List Expr) (e : Expr) :
    s.actions.call cs es e ↔ s.trees.call cs es e := by
  constructor
  · rintro ⟨name, op, hsym, rfl⟩
    rw [symbol_iff] at hsym
    by_cases hupper : Text.allUpper (String.ofList cs) = true
    · rw [if_pos hupper] at hsym
      obtain ⟨op', hop', heq⟩ := hsym
      cases heq
      exact ⟨hupper, op, hop', rfl⟩
    · rw [if_neg hupper] at hsym
      split at hsym <;> cases hsym
  · rintro ⟨hupper, op, hop, rfl⟩
    refine ⟨op.name, op, symbol_iff.2 ?_, rfl⟩
    rw [if_pos hupper]
    exact ⟨op, hop, rfl⟩

/-- A numeral has a literal unless it has too many digits. -/
theorem actions_numeral (ds : List Char) (fs : Option (List Char)) (e : Expr) :
    s.actions.numeral ds fs e ↔ s.trees.numeral ds fs e := by
  cases fs with
  | some fs => simp [actions, trees, readNumeral]
  | none =>
    by_cases hlong : maxDecimalDigits < ds.length
    · have hle : ¬ds.length ≤ maxDecimalDigits := by omega
      simp [actions, trees, readNumeral, hlong, hle]
    · simp [actions, trees, readNumeral, hlong, Nat.not_lt.1 hlong, Expr.int]

/-- The reader divides by the rule. -/
theorem actions_division (e : Expr) (ds : List Expr) :
    s.actions.division e ds = s.trees.division e ds := by
  show s.quotient e ds = _
  unfold quotient trees
  dsimp only
  split
  · rfl
  · rfl
  · next hsome hratio =>
    split
    · exact absurd rfl hsome
    · exact absurd rfl (hratio _ _ rfl)
    · rfl

theorem join_cons (op : Operator) (e : Expr) (es : List Expr) :
    s.join op (e :: es) = s.joined op e es := by
  cases es <;> rfl

/-- A minus sign is kept by the first factor or becomes a factor of its own. -/
theorem negateFactors_cons (e : Expr) (es : List Expr) :
    negateFactors (e :: es) = (negatedFactor e).1 :: ((negatedFactor e).2 ++ es) := by
  cases e with
  | num n => cases n <;> rfl
  | sym name role => rfl
  | app op ps => rfl

/-- The reader multiplies by the rule, with its sign or without. -/
theorem actions_multiplication (negative : Bool) (e : Expr) (es : List Expr) :
    s.actions.multiplication negative e es = s.trees.multiplication negative e es := by
  cases negative with
  | true =>
    show s.join .multiply (negateFactors (e :: es)) = _
    rw [negateFactors_cons, join_cons]
    rfl
  | false => exact join_cons .multiply e es

/-- The reader adds by the rule. -/
theorem actions_expression (e : Expr) (es : List Expr) :
    s.actions.expression e es = s.trees.expression e es := join_cons .add e es

/-- The reader does what the rules say. -/
theorem actions_eq_trees (s : Scope) : s.actions = s.trees := by
  have hname : s.actions.name = s.trees.name :=
    funext fun cs => funext fun e => propext (actions_name cs e)
  have hcall : s.actions.call = s.trees.call :=
    funext fun cs => funext fun es => funext fun e => propext (actions_call cs es e)
  have hnumeral : s.actions.numeral = s.trees.numeral :=
    funext fun ds => funext fun fs => funext fun e => propext (actions_numeral ds fs e)
  have hdivision : s.actions.division = s.trees.division :=
    funext fun e => funext fun ds => actions_division e ds
  have hmultiplication : s.actions.multiplication = s.trees.multiplication :=
    funext fun negative => funext fun e => funext fun es => actions_multiplication negative e es
  have hexpression : s.actions.expression = s.trees.expression :=
    funext fun e => funext fun es => actions_expression e es
  show Actions.mk s.actions.name s.actions.call s.actions.numeral _ _ _ s.actions.division
    s.actions.multiplication s.actions.expression _ = _
  rw [hname, hcall, hnumeral, hdivision, hmultiplication, hexpression]
  rfl

/-! ## What is read -/

/-- Within a depth a text is read exactly to what its lexemes can be derived to. -/
theorem readWithin_iff {depth : Nat} {text : List Char} {e : Expr} :
    s.readWithin depth text = .ok e ↔
      ∃ ls, Splits text ls ∧ Definition s.trees (termAt s.trees depth) ls e := by
  rw [← actions_eq_trees]
  constructor
  · intro h
    exact ⟨lexemes text, splits_lexemes text, definition_of_readWithin h⟩
  · rintro ⟨ls, hsplits, h⟩
    obtain rfl := splits_iff.1 hsplits
    exact readWithin_eq_ok h

/-- What is read within a depth is read within any greater one. -/
theorem readWithin_of_le {m n : Nat} (hmn : m ≤ n) {text : List Char} {e : Expr}
    (h : s.readWithin m text = .ok e) : s.readWithin n text = .ok e := by
  obtain ⟨ls, hsplits, hdef⟩ := readWithin_iff.1 h
  exact readWithin_iff.2 ⟨ls, hsplits, Definition.mono (termAt_mono hmn) ls e hdef⟩

/-- A text is split into lexemes in exactly one way. It is read within a depth exactly when its
lexemes can be derived within that depth, to the tree of the derivation; and if nesting is not what
it fails for, it is read exactly when they can be derived at all. There are no two derivations,
whatever they are to give. -/
theorem read_iff_derives (s : Scope) :
    (∀ text, ∃! ls, Splits text ls) ∧
    (∀ depth text e, s.readWithin depth text = .ok e ↔
      ∃ ls, Splits text ls ∧ Definition s.trees (termAt s.trees depth) ls e) ∧
    (∀ text, s.read text = .error .tooDeep ∨ ∀ e, s.read text = .ok e ↔
      ∃ ls depth, Splits text.toList ls ∧ Definition s.trees (termAt s.trees depth) ls e) ∧
    ∀ (α : Type) (A : Actions α), A.Functional → ∀ ls m n a b,
      Definition A (termAt A m) ls a → Definition A (termAt A n) ls b → a = b := by
  refine ⟨fun text => ?_, fun _ _ _ => readWithin_iff, fun text => ?_, ?_⟩
  · exact ⟨lexemes text, splits_lexemes text, fun ls h => splits_iff.1 h⟩
  · by_cases hdeep : s.read text = .error .tooDeep
    · exact .inl hdeep
    · refine .inr fun e => ?_
      constructor
      · intro h
        obtain ⟨ls, hsplits, hdef⟩ := readWithin_iff.1 h
        exact ⟨ls, Expr.maxDepth, hsplits, hdef⟩
      · rintro ⟨ls, depth, hsplits, hdef⟩
        -- the depth of the derivation and the limit are compared at the greater of the two
        have hread := readWithin_of_le (Nat.le_max_left depth Expr.maxDepth)
          (readWithin_iff.2 ⟨ls, hsplits, hdef⟩)
        have hsame := deepens_readWithin s (Nat.le_max_right depth Expr.maxDepth) text.toList hdeep
        exact hsame.symm.trans hread
  · intro α A hA ls m n a b h h'
    exact definition_unique hA h h'

end Scope

end Reckoner
