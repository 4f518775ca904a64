import Reckoner.Workspace
import Reckoner.Proofs.Evaluation.Ownership

/-!
# Calculators side by side

Calculators with registries of their own take turns in any order. Each of them works with the
expressions that it read or computed itself, and so with expressions of its own registry: what
another one does in between neither shows in its answers nor in its variables. Every calculator gets
the reports that it would get alone.
-/

namespace Reckoner

open Calculation

/-! ## Sessions of several calculators -/

/-- What a calculator is asked to do. Its expressions go by the order in which it got them. -/
inductive Step where
  /-- Read a text. -/
  | read (text : String)
  /-- Evaluate an expression that was read or computed before. -/
  | evaluate (tree : Nat)
  /-- Read and evaluate a text. -/
  | calculate (text : String)
  /-- Bind a variable to the value of a text. -/
  | define (name text : String)
  /-- Remove a variable. -/
  | undefine (name : String)
  /-- Remove all variables. -/
  | clear

/-- What the calculator does, with the expressions that it got before. -/
def Step.run (c : Calculator) (trees : List Expr) : Step → Calculation Answer
  | .read text => do return .tree (← c.read text)
  | .evaluate tree =>
    match trees[tree]? with
    | some e => do return .tree (← c.evaluate e)
    | none => return .nothing
  | .calculate text => do return .tree (← c.calculate text)
  | .define name text => do return .tree (← c.define name text)
  | .undefine name => do return .truth (← c.undefine name)
  | .clear => do
    c.clear
    return .nothing

/-- The expressions that the calculator gets by an outcome. -/
def newTrees : Except CalculationError Answer → List Expr
  | .ok (.tree e) => [e]
  | _ => []

/-- What is seen of a step. -/
structure Report where
  /-- The answer or the error. -/
  outcome : Except CalculationError Answer
  /-- The events. -/
  trace : Trace
  /-- The variables of the calculator afterwards. -/
  bindings : Table String Expr

/-- The registries, and the expressions of each calculator. -/
structure Bench where
  /-- The registries. -/
  stores : Stores
  /-- The expressions that a calculator got so far. -/
  trees : Calculator → List Expr

namespace Bench

/-- The built-in operators, no variables and no expressions. -/
def fresh : Bench := ⟨.fresh, fun _ => []⟩

/-- One step of a calculator. -/
def perform (b : Bench) (c : Calculator) (step : Step) : Report × Bench :=
  let o := step.run c (b.trees c) b.stores
  (⟨o.value, o.trace, (o.stores.registry c.store).bindings⟩,
    ⟨o.stores, fun c' => if c' = c then b.trees c ++ newTrees o.value else b.trees c'⟩)

/-- The reports of a session, in which calculators take turns. -/
def run (b : Bench) : List (Calculator × Step) → List (Calculator × Report)
  | [] => []
  | (c, step) :: session => (c, (b.perform c step).1) :: (b.perform c step).2.run session

/-- What a session leads to. -/
def after (b : Bench) : List (Calculator × Step) → Bench
  | [] => b
  | (c, step) :: session => (b.perform c step).2.after session

end Bench

/-! ## One step -/

/-- The expressions that come with the answer belong to the registry. -/
def Answer.IsOwnedBy (id : StoreId) (a : Answer) : Prop := ∀ e, a = .tree e → e.IsOwnedBy id

theorem Answer.isOwnedBy_tree {id : StoreId} {e : Expr} (he : e.IsOwnedBy id) :
    (Answer.tree e).IsOwnedBy id := by
  intro e' h
  cases h
  exact he

theorem Answer.isOwnedBy_truth {id : StoreId} (b : Bool) : (Answer.truth b).IsOwnedBy id :=
  fun _ h => by cases h

theorem Answer.isOwnedBy_nothing {id : StoreId} : Answer.nothing.IsOwnedBy id :=
  fun _ h => by cases h

/-- A calculator with expressions of its own registry works on that registry. -/
theorem Calculation.Local.step {c : Calculator}
    {H : {α : Type} → Calculation α → (α → Prop) → Prop} (h : Local c.store H) {trees : List Expr}
    (htrees : ∀ e ∈ trees, e.IsOwnedBy c.store) (step : Step) :
    H (step.run c trees) (Answer.IsOwnedBy c.store) := by
  have hobeys := h.obeys
  have htree : ∀ {x : Calculation Expr}, H x (Expr.IsOwnedBy c.store) →
      H (do return Answer.tree (← x)) (Answer.IsOwnedBy c.store) := fun hx =>
    h.logic.bind hx fun e he => h.logic.pure (Answer.isOwnedBy_tree he)
  cases step with
  | read text => exact htree (hobeys.read text)
  | evaluate tree =>
    simp only [Step.run]
    cases he : trees[tree]? with
    | none => exact h.logic.pure Answer.isOwnedBy_nothing
    | some e => exact htree (hobeys.evaluate (htrees e (List.mem_of_getElem? he)))
  | calculate text => exact htree (hobeys.calculate text)
  | define name text => exact htree (hobeys.define name text)
  | undefine name =>
    exact h.logic.bind (hobeys.undefine name) fun b _ => h.logic.pure (Answer.isOwnedBy_truth b)
  | clear => exact h.logic.bind hobeys.clear fun _ _ => h.logic.pure Answer.isOwnedBy_nothing

theorem forall_mem_newTrees {id : StoreId} {x : Except CalculationError Answer}
    (h : ∀ a, x = .ok a → a.IsOwnedBy id) : ∀ e ∈ newTrees x, e.IsOwnedBy id := by
  intro e he
  unfold newTrees at he
  split at he
  · next e' =>
    rw [List.mem_singleton] at he
    exact he ▸ h _ rfl e' rfl
  · cases he

namespace Bench

/-! ## Benches -/

/-- The calculator finds the same expressions and the same registry on both benches, and they belong
to it. -/
structure Same (c : Calculator) (b b' : Bench) : Prop where
  stores : Stores.SameOwn c.store b.stores b'.stores
  trees : b.trees c = b'.trees c
  owned : ∀ e ∈ b.trees c, e.IsOwnedBy c.store

/-- Every calculator finds what belongs to it. -/
def Owned (b : Bench) : Prop := ∀ c, Same c b b

variable {b b' : Bench} {c c' : Calculator}

theorem owned_fresh : fresh.Owned :=
  fun c => ⟨⟨rfl, Registry.ownedBy_fresh c.store⟩, rfl, fun e he => by cases he⟩

theorem Same.left (h : Same c b b') : Same c b b := ⟨⟨rfl, h.stores.2⟩, rfl, h.owned⟩

/-- A calculator that finds the same on two benches reports the same. -/
theorem Same.report (h : Same c b b') (step : Step) :
    (b.perform c step).1 = (b'.perform c step).1 := by
  obtain ⟨hvalue, htrace, hstores, -⟩ := (local_agrees c.store).step h.owned step _ _ h.stores
  show Report.mk _ _ _ = Report.mk _ _ _
  rw [← h.trees, hvalue, htrace, hstores.1]

/-- And it finds the same afterwards. -/
theorem Same.perform (h : Same c b b') (step : Step) :
    Same c (b.perform c step).2 (b'.perform c step).2 := by
  obtain ⟨hvalue, -, hstores, hanswer⟩ := (local_agrees c.store).step h.owned step _ _ h.stores
  have htrees : ∀ b : Bench, (b.perform c step).2.trees c =
      b.trees c ++ newTrees (step.run c (b.trees c) b.stores).value := fun _ => if_pos rfl
  constructor
  · show Stores.SameOwn c.store (step.run c (b.trees c) b.stores).stores
      (step.run c (b'.trees c) b'.stores).stores
    rw [← h.trees]
    exact hstores
  · rw [htrees, htrees, ← h.trees, hvalue]
  · intro e he
    rw [htrees] at he
    rcases List.mem_append.1 he with he | he
    · exact h.owned e he
    · exact forall_mem_newTrees hanswer e he

/-- What another calculator does changes nothing for it. -/
theorem Same.perform_other (h : Same c b b') (h' : Same c' b b) (hne : c ≠ c') (step : Step) :
    Same c (b.perform c' step).2 b' := by
  have hid : c.store ≠ c'.store := by
    intro heq
    cases c
    cases c'
    exact hne (congrArg Calculator.mk heq)
  have hkeeps := (local_keeps c'.store b.stores).step h'.owned step
  have hstores : (b.perform c' step).2.stores.registry c.store = b.stores.registry c.store :=
    (hkeeps b.stores ⟨h'.stores.2, fun _ _ => rfl⟩).1.2 c.store hid
  have htrees : (b.perform c' step).2.trees c = b.trees c := if_neg hne
  refine ⟨⟨?_, ?_⟩, ?_, ?_⟩
  · rw [hstores]
    exact h.stores.1
  · rw [hstores]
    exact h.stores.2
  · rw [htrees]
    exact h.trees
  · rw [htrees]
    exact h.owned

theorem Owned.perform (h : b.Owned) (c : Calculator) (step : Step) :
    (b.perform c step).2.Owned := by
  intro c'
  by_cases hc : c' = c
  · subst hc
    exact (h c').perform step
  · exact ((h c').perform_other (h c) hc step).left

theorem Owned.after (h : b.Owned) (session : List (Calculator × Step)) :
    (b.after session).Owned := by
  induction session generalizing b with
  | nil => exact h
  | cons entry session ih => exact ih (h.perform entry.1 entry.2)

/-! ## Sessions -/

/-- The reports of a calculator within a session are those of its own steps. -/
theorem Same.run (h : Same c b b') (hb : b.Owned) (session : List (Calculator × Step)) :
    (b.run session).filter (·.1 = c) = b'.run (session.filter (·.1 = c)) := by
  induction session generalizing b b' with
  | nil => rfl
  | cons entry session ih =>
    obtain ⟨c', step⟩ := entry
    have hb' := hb.perform c' step
    rw [Bench.run]
    by_cases hc : c' = c
    · subst hc
      rw [List.filter_cons_of_pos (by simp), List.filter_cons_of_pos (by simp), Bench.run,
        h.report step, ih (h.perform step) hb']
    · rw [List.filter_cons_of_neg (by simpa using hc), List.filter_cons_of_neg (by simpa using hc)]
      exact ih (h.perform_other (hb c') (fun heq => hc heq.symm) step) hb'

/-- From whatever a session led to, the reports of a calculator, with all its answers, errors and
variables, are those that it gets when the other calculators do nothing. -/
theorem run_alone (before session : List (Calculator × Step)) (c : Calculator) :
    ((fresh.after before).run session).filter (·.1 = c) =
      (fresh.after before).run (session.filter (·.1 = c)) := by
  -- whatever came before, each calculator still owns the trees that it holds
  have howned := owned_fresh.after before
  exact (howned c).run howned session

end Bench

end Reckoner
