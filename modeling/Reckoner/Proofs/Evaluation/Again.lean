import Reckoner.Proofs.Evaluation
import Reckoner.Proofs.Meaning
import Reckoner.Proofs.Simplify.Again

/-!
# Evaluating once more

The value of an arithmetic expression is evaluated to itself, unless one of its products has a
factor that is a power of all the factors before it. Such a factor is taken up by the second
evaluation: the first one meets the factors in another order, before their number is moved to the
front, and so may leave it beside them. Sums keep the order of their terms, so that nothing of the
kind can happen to them.

Each parameter of a value is evaluated to something lighter or to itself, and so is the value.
-/

namespace Reckoner

open Simplify

namespace Calculation

variable {α β : Type}

/-- Two calculations in a row give a value exactly when both do. -/
theorem value_bind_eq_ok {x : Calculation α} {f : α → Calculation β} {s : Stores} {b : β} :
    ((x >>= f) s).value = .ok b ↔
      ∃ a, (x s).value = .ok a ∧ (f a (x s).stores).value = .ok b := by
  cases hv : (x s).value with
  | error e =>
    rw [bind_of_error hv]
    simp
  | ok a =>
    rw [bind_of_ok hv]
    simp

end Calculation

/-! ## Values of arithmetic expressions -/

/-- Everything but variables that are looked up and operators that do not compute. -/
def Material.algebraic : Material where
  number _ := True
  symbol _ role := ∀ id, role ≠ .stored id
  operator := Operator.IsArithmetic

theorem Material.closed_algebraic : Material.algebraic.Closed :=
  closed_of_numbers (fun _ => trivial) fun _ hop => hop

namespace Expr

/-- The expression applies sums, products and powers only, and looks no variable up. -/
def IsAlgebraic (e : Expr) : Prop := e.MadeOf .algebraic

/-- What holds of the value of every arithmetic expression. -/
structure Evaluated (e : Expr) : Prop where
  algebraic : e.IsAlgebraic
  normal : e.Normal
  steady : e.Steady

theorem Evaluated.node {op : Operator} {ps : List Expr} (h : (Expr.app op ps).Evaluated) :
    op.IsArithmetic ∧ NormalNode op ps ∧ (op = .add → PrefixesApart .add ps) :=
  ⟨(madeOf_app.1 h.algebraic).1, (normal_app.1 h.normal).1, (steady_app.1 h.steady).1⟩

theorem Evaluated.params {op : Operator} {ps : List Expr} (h : (Expr.app op ps).Evaluated) :
    ∀ p ∈ ps, p.Evaluated := by
  intro p hp
  have halgebraic := (madeOf_app.1 h.algebraic).2 p hp
  have hnormal := (normal_app.1 h.normal).2 p hp
  have hsteady := (steady_app.1 h.steady).2 p hp
  exact ⟨halgebraic, hnormal, hsteady⟩

theorem yields_evaluated : Material.algebraic.Yields (fun _ => True) Evaluated where
  number _ := ⟨madeOf_num.2 trivial, normal_num, steady_num⟩
  symbol _ hrole := ⟨madeOf_sym.2 hrole, normal_sym, everyNode_sym⟩
  stored h _ := absurd rfl (h _)
  bound _ _ _ _ := trivial
  reduce hop _ hps he := by
    have hproper := Operator.IsArithmetic.isProper hop
    have halgebraic :=
      madeOf_reduce Material.closed_algebraic hop (fun p hp => (hps p hp).algebraic) he
    have hnormal := normal_reduce hproper (fun p hp => (hps p hp).normal) he
    have hsteady := steady_reduce hproper (fun p hp => (hps p hp).steady) he
    exact ⟨halgebraic, hnormal, hsteady⟩

theorem IsAlgebraic.evaluated {e r : Expr} {depth : Nat} {s : Stores} (h : e.IsAlgebraic)
    (hr : (e.evaluateWithin depth s).value = .ok r) : r.Evaluated :=
  (keeps_evaluateWithin yields_evaluated depth e h s trivial).2 r hr

/-! ## Folded expressions -/

/-- No parameter of a sum or product goes with all the ones before it. -/
def Folded (e : Expr) : Prop := e.EveryNode fun op ps => op.IsMonoidal → PrefixesApart op ps

/-- No factor of a product, after the first two, is a power of all the factors before it. -/
def BasesClear (e : Expr) : Prop := e.EveryNode fun op ps => op = .multiply → BasesApart ps

instance (e : Expr) : Decidable e.BasesClear :=
  inferInstanceAs (Decidable (e.EveryNode fun op ps => op = .multiply → BasesApart ps))

theorem Evaluated.folded_iff {e : Expr} (h : e.Evaluated) : e.Folded ↔ e.BasesClear := by
  induction e using Expr.induction with
  | num n => exact iff_of_true everyNode_num everyNode_num
  | sym name role => exact iff_of_true everyNode_sym everyNode_sym
  | app op ps ih =>
    obtain ⟨-, hnode, hsum⟩ := h.node
    have hparams : (∀ p ∈ ps, p.Folded) ↔ ∀ p ∈ ps, p.BasesClear :=
      forall₂_congr fun p hp => ih p hp (h.params p hp)
    have hhead : (op.IsMonoidal → PrefixesApart op ps) ↔ (op = .multiply → BasesApart ps) := by
      constructor
      · rintro hall rfl
        exact (prefixesApart_multiply hnode (normal_app.1 h.normal).2).1 (hall (.inr rfl))
      · rintro hbases (rfl | rfl)
        · exact hsum rfl
        · exact (prefixesApart_multiply hnode (normal_app.1 h.normal).2).2 (hbases rfl)
    rw [Folded, BasesClear, everyNode_app, everyNode_app, hhead]
    exact and_congr_right fun _ => hparams

/-! ## The second evaluation -/

theorem value_evaluateWithin_app {op : Operator} {ps : List Expr} {depth : Nat} {s : Stores}
    {r : Expr} (hop : op.IsArithmetic) :
    ((Expr.app op ps).evaluateWithin (depth + 1) s).value = .ok r ↔
      ∃ args, (evaluateList depth ps s).value = .ok args ∧ (reduce op args).value = .ok r := by
  rw [evaluateWithin]
  · rw [Calculation.value_bind_eq_ok]
    exact exists_congr fun args => and_congr_right fun _ => Calculation.mapError_eq_ok
  · exact hop.isProper.2

theorem value_evaluateList_cons {p : Expr} {ps args : List Expr} {depth : Nat} {s : Stores} :
    (evaluateList depth (p :: ps) s).value = .ok args ↔
      ∃ a as, (p.evaluateWithin depth s).value = .ok a ∧
        (evaluateList depth ps (p.evaluateWithin depth s).stores).value = .ok as ∧
          args = a :: as := by
  rw [evaluateList, Calculation.value_bind_eq_ok]
  refine exists_congr fun a => ?_
  rw [Calculation.value_bind_eq_ok]
  simp [eq_comm]

mutual

/-- A folded value is evaluated to itself. -/
theorem evaluateWithin_of_folded : (depth : Nat) → (e : Expr) → e.Evaluated → e.Folded →
    e.deeperThan depth = false → ∀ s, (e.evaluateWithin depth s).value = .ok e
  | _, .num n, _, _, _, s => by
    rw [evaluateWithin]
    rfl
  | _, .sym name role, h, _, _, s => by
    rw [evaluateWithin]
    cases role with
    | free => rfl
    | operator op => rfl
    | stored id => exact absurd rfl (madeOf_sym.1 h.algebraic id)
  | 0, .app op ps, _, _, hdeep, s => by
    rw [deeperThan] at hdeep
    cases hdeep
  | depth + 1, .app op ps, h, hfolded, hdeep, s => by
    obtain ⟨hop, hnode, -⟩ := h.node
    obtain ⟨hprefixes, hps⟩ := everyNode_app.1 hfolded
    rw [deeperThan, anyDeeperThan_eq_false] at hdeep
    have hargs := evaluateList_of_folded depth ps h.params hps hdeep s
    exact (value_evaluateWithin_app hop).2 ⟨ps, hargs, reduce_of_prefixesApart hop hnode hprefixes⟩

theorem evaluateList_of_folded : (depth : Nat) → (ps : List Expr) → (∀ p ∈ ps, p.Evaluated) →
    (∀ p ∈ ps, p.Folded) → (∀ p ∈ ps, p.deeperThan depth = false) →
    ∀ s, (evaluateList depth ps s).value = .ok ps
  | _, [], _, _, _, s => by
    rw [evaluateList]
    rfl
  | depth, p :: ps, h, hfolded, hdeep, s => by
    rw [List.forall_mem_cons] at h hfolded hdeep
    have hp := evaluateWithin_of_folded depth p h.1 hfolded.1 hdeep.1 s
    have hps := evaluateList_of_folded depth ps h.2 hfolded.2 hdeep.2
    exact value_evaluateList_cons.2 ⟨p, ps, hp, hps _, rfl⟩

end

mutual

/-- A value is evaluated to something lighter, or it is folded and evaluated to itself. -/
theorem weight_lt_or_folded : (depth : Nat) → (e : Expr) → e.Evaluated → {s : Stores} → {r : Expr} →
    (e.evaluateWithin depth s).value = .ok r → weight r < weight e ∨ (r = e ∧ e.Folded)
  | _, .num n, _, s, r, hr => by
    rw [evaluateWithin] at hr
    cases hr
    exact .inr ⟨rfl, everyNode_num⟩
  | _, .sym name role, h, s, r, hr => by
    rw [evaluateWithin] at hr
    cases role with
    | free =>
      cases hr
      exact .inr ⟨rfl, everyNode_sym⟩
    | operator op =>
      cases hr
      exact .inr ⟨rfl, everyNode_sym⟩
    | stored id => exact absurd rfl (madeOf_sym.1 h.algebraic id)
  | 0, .app op ps, h, s, r, hr => by
    rw [evaluateWithin] at hr
    · cases hr
    · exact h.node.1.isProper.2
  | depth + 1, .app op ps, h, s, r, hr => by
    obtain ⟨hop, hnode, -⟩ := h.node
    obtain ⟨args, hargs, hreduce⟩ := (value_evaluateWithin_app hop).1 hr
    obtain ⟨hlength, hparams⟩ :=
      shares_lt_or_folded (shareOf op.name) depth ps h.params hargs
    rcases hparams with hlt | ⟨rfl, hfolded⟩
    · -- with lighter parameters the application is lighter before it is simplified
      have hle := weight_reduce_le hreduce
      exact .inl (Nat.lt_of_le_of_lt hle (weight_app_lt hlength hlt))
    · -- with the same parameters the fold either finds something to do or finds nothing at all
      rcases weight_reduce_lt_or hnode hreduce with hlt | hprefixes
      · exact .inl hlt
      · rw [reduce_of_prefixesApart hop hnode hprefixes, Except.ok.injEq] at hreduce
        exact .inr ⟨hreduce.symm, everyNode_app.2 ⟨hprefixes, hfolded⟩⟩

theorem shares_lt_or_folded (share : Nat) : (depth : Nat) → (ps : List Expr) →
    (∀ p ∈ ps, p.Evaluated) → {s : Stores} → {args : List Expr} →
    (evaluateList depth ps s).value = .ok args → args.length = ps.length ∧
      (shares share args < shares share ps ∨ (args = ps ∧ ∀ p ∈ ps, p.Folded))
  | _, [], _, s, args, hargs => by
    rw [evaluateList] at hargs
    cases hargs
    exact ⟨rfl, .inr ⟨rfl, by simp⟩⟩
  | depth, p :: ps, h, s, args, hargs => by
    rw [List.forall_mem_cons] at h
    obtain ⟨a, as, ha, has, rfl⟩ := value_evaluateList_cons.1 hargs
    obtain ⟨hlength, hparams⟩ := shares_lt_or_folded share depth ps h.2 has
    refine ⟨congrArg (· + 1) hlength, ?_⟩
    rw [shares_cons, shares_cons]
    rcases weight_lt_or_folded depth p h.1 ha with hlt | ⟨rfl, hfirst⟩
    · rcases hparams with hlt' | ⟨rfl, -⟩ <;> exact .inl (by omega)
    · rcases hparams with hlt' | ⟨rfl, hfolded⟩
      · exact .inl (by omega)
      · exact .inr ⟨rfl, List.forall_mem_cons.2 ⟨hfirst, hfolded⟩⟩

end

/-- The value of an arithmetic expression is evaluated to the same value again exactly when no
factor of one of its products is a power of all the factors before it. Nothing depends on the
registries, and nesting matters only in that the value has to be evaluated at all. -/
theorem evaluate_again_iff {e r : Expr} {depth limit : Nat} {s s' : Stores} (he : e.IsAlgebraic)
    (hr : (e.evaluateWithin depth s).value = .ok r) (hlimit : r.deeperThan limit = false) :
    (∃ r', (r.evaluateWithin limit s').value = .ok r' ∧ r'.same r = true) ↔ r.BasesClear := by
  have hevaluated := he.evaluated hr
  rw [← hevaluated.folded_iff]
  constructor
  · rintro ⟨r', hr', hsame⟩
    have hweight := weight_eq_of_same r' r hsame
    rcases weight_lt_or_folded limit r hevaluated hr' with hlt | ⟨-, hfolded⟩
    · omega
    · exact hfolded
  · intro hfolded
    exact ⟨r, evaluateWithin_of_folded limit r hevaluated hfolded hlimit s', same_refl r⟩

/-- The product `x * 3 * y * e ^ 2`. -/
def timesSquare (e : Expr) : Expr :=
  .app .multiply [.free "x", .int 3, .free "y", .app .power [e, .int 2]]

/-- Another evaluation of `3 * x * y * (3 * x) ^ 2` changes nothing: not all factors before the
power are in its base. -/
theorem evaluate_again_shorter_base :
    let e : Expr := timesSquare (.app .multiply [.int 3, .free "x"])
    let r : Expr := .app .multiply [.int 3, .free "x", .free "y",
      .app .power [.app .multiply [.int 3, .free "x"], .int 2]]
    e.IsAlgebraic ∧ (e.evaluate Stores.fresh).value = .ok r ∧ r.deeperThan maxDepth = false ∧
      r.BasesClear ∧ ∃ r', (r.evaluate Stores.fresh).value = .ok r' ∧ r'.same r = true := by
  intro e r
  have halgebraic : e.IsAlgebraic := by
    simp [e, timesSquare, IsAlgebraic, Material.algebraic, Operator.IsArithmetic, free, int]
  have hvalue : (e.evaluate Stores.fresh).value = .ok r := by
    cbv
  have hlimit : r.deeperThan maxDepth = false := rfl
  have hclear : r.BasesClear := by
    decide +kernel
  exact ⟨halgebraic, hvalue, hlimit, hclear, (evaluate_again_iff halgebraic hvalue hlimit).2 hclear⟩

/-- Another evaluation of `3 * x * y * (3 * x * y) ^ 2` gives `(3 * x * y) ^ 3`. -/
theorem evaluate_again_whole_base :
    let e : Expr := timesSquare (.app .multiply [.int 3, .free "x", .free "y"])
    let r : Expr := .app .multiply [.int 3, .free "x", .free "y",
      .app .power [.app .multiply [.int 3, .free "x", .free "y"], .int 2]]
    let r' : Expr := .app .power [.app .multiply [.int 3, .free "x", .free "y"], .int 3]
    e.IsAlgebraic ∧ e.IsExact ∧ (e.evaluate Stores.fresh).value = .ok r ∧
      (r.evaluate Stores.fresh).value = .ok r' ∧ r'.same r = false := by
  intro e r r'
  have halgebraic : e.IsAlgebraic := by
    simp [e, timesSquare, IsAlgebraic, Material.algebraic, Operator.IsArithmetic, free, int]
  have hexact : e.IsExact := by
    simp [e, timesSquare, IsExact, Material.exact, free, int, Number.toRat?]
  have hvalue : (e.evaluate Stores.fresh).value = .ok r := by
    cbv
  have hagain : (r.evaluate Stores.fresh).value = .ok r' := by
    cbv
  exact ⟨halgebraic, hexact, hvalue, hagain, by decide +kernel⟩

end Expr

end Reckoner
