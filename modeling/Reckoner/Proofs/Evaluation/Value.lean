import Reckoner.Proofs.Evaluation
import Reckoner.Proofs.Simplify.Value
import Mathlib.Algebra.Module.Submodule.Lattice

/-!
# Evaluation keeps the meaning

An expression that means a number contains no definition, so its evaluation leaves the registries
alone, and every application on the way is simplified to one of the same value.
-/

namespace Reckoner

/-- No value bound to a variable refers to a variable that is looked up. -/
def Stores.Resolved (s : Stores) : Prop :=
  ∀ id name e, (s.registry id).bindings.get? name = some e → e.IsResolved

theorem Material.closed_resolved : Material.resolved.Closed :=
  closed_of_numbers (fun _ => trivial) fun _ _ => trivial

namespace Expr

open Calculation

variable {s : Stores} {σ : String → ℚ}

theorem keeps_meaning_symbolValue (hs : s.Resolved) {name : String} {role : Role} {v : ℚ}
    (h : s.valuation σ name role = some v) :
    Keeps (· = s) (symbolValue name role) fun r =>
      r.IsResolved ∧ r.denote (byName σ) = some v := by
  unfold symbolValue
  split
  · next id =>
    refine Keeps.bind (Keeps.registry (Q := (· = s.registry id)) fun s' hs' => by rw [hs'])
      fun r hr => Keeps.pure ?_
    subst hr
    simp only [Stores.valuation] at h
    cases hb : (s.registry id).bindings.get? name with
    | none =>
      rw [hb] at h
      have hfree : ∀ id, Role.free ≠ .stored id := by simp
      exact ⟨madeOf_sym.2 hfree, h⟩
    | some e =>
      rw [hb] at h
      exact ⟨hs id name e hb, h⟩
  · next hrole =>
    refine Keeps.pure ⟨madeOf_sym.2 hrole, ?_⟩
    cases role with
    | stored id => exact absurd rfl (hrole id)
    | free => exact h
    | operator op => exact h

mutual

/-- The value of an expression is resolved and means what the expression means, and the registries
are as they were. -/
theorem keeps_meaning_evaluateWithin (hs : s.Resolved) : (depth : Nat) → (e : Expr) → {v : ℚ} →
    e.meaning s σ = some v → Keeps (· = s) (evaluateWithin depth e) fun r =>
      r.IsResolved ∧ r.denote (byName σ) = some v
  | _, .num n, v, h => by
    rw [evaluateWithin]
    exact Keeps.pure ⟨madeOf_num.2 trivial, h⟩
  | _, .sym name role, v, h => by
    rw [evaluateWithin]
    exact keeps_meaning_symbolValue hs h
  | depth, .app op ps, v, h => by
    obtain ⟨vs, hvs, hv⟩ := denote_app.1 h
    have hop : ∀ id, op ≠ .define id := by
      rintro id rfl
      cases hv
    cases depth with
    | zero =>
      rw [evaluateWithin]
      · exact Keeps.fail
      · exact hop
    | succ depth =>
      rw [evaluateWithin]
      · refine Keeps.bind (keeps_meaning_evaluateList hs depth ps hvs) fun args hargs => ?_
        refine Keeps.ofLogged fun r hr => ⟨?_, ?_⟩
        · exact Simplify.madeOf_reduce Material.closed_resolved trivial hargs.1 hr
        · exact Simplify.denote_reduce (denote_app.2 ⟨vs, hargs.2, hv⟩) hr
      · exact hop

theorem keeps_meaning_evaluateList (hs : s.Resolved) : (depth : Nat) → (ps : List Expr) →
    {vs : List ℚ} → Denote (s.valuation σ) ps vs → Keeps (· = s) (evaluateList depth ps) fun args =>
      (∀ a ∈ args, a.IsResolved) ∧ Denote (byName σ) args vs
  | _, [], _, .nil => by
    rw [evaluateList]
    exact Keeps.pure ⟨by simp, .nil⟩
  | depth, p :: ps, _, .cons hp hps => by
    rw [evaluateList]
    refine Keeps.bind (keeps_meaning_evaluateWithin hs depth p hp) fun value hvalue => ?_
    refine Keeps.bind (keeps_meaning_evaluateList hs depth ps hps) fun args hargs => ?_
    exact Keeps.pure ⟨by simpa [hvalue.1] using hargs.1, .cons hvalue.2 hargs.2⟩

end

theorem IsResolved.meaning_eq {e : Expr} (h : e.IsResolved) :
    e.meaning s σ = e.denote (byName σ) := by
  refine denote_congr (fun name role hrole => ?_) h
  cases role with
  | stored id => exact absurd rfl (hrole id)
  | free => rfl
  | operator op => rfl

/-- What an expression with a meaning evaluates to has no double in it and the same meaning, and the
registries are as they were. -/
theorem meaning_evaluate {e r : Expr} {v : ℚ} (hs : s.Resolved) (he : e.meaning s σ = some v)
    (hr : (e.evaluate s).value = .ok r) :
    r.IsExact ∧ r.meaning s σ = some v ∧ (e.evaluate s).stores = s := by
  obtain ⟨hstores, hvalue⟩ := keeps_meaning_evaluateWithin hs maxDepth e he s rfl
  obtain ⟨hresolved, hv⟩ := hvalue r hr
  exact ⟨isExact_of_denote hv, hresolved.meaning_eq.trans hv, hstores⟩

/-- The first registry binds `y` to `x ^ -1`. -/
def reciprocalStores : Stores :=
  Stores.fresh.put 0
    { Registry.fresh 0 with bindings := ⟨[("y", .app .power [.free "x", .num .minusOne])]⟩ }

theorem resolved_reciprocalStores : reciprocalStores.Resolved := by
  intro id name e h
  rw [reciprocalStores, Stores.registry_put] at h
  split at h
  · simp only [Table.get?, Table.find?] at h
    split at h
    · rw [← Option.some.inj h]
      simp [IsResolved, Material.resolved, free]
    · cases h
  · simp [Registry.fresh] at h

/-- With `y` bound to `x ^ -1`, the product `x * y * (3/2) * x` is evaluated to `(3/2) * x`, and
both mean three where `x` is two. -/
theorem meaning_evaluate_reciprocal :
    let product : Expr :=
      .app .multiply [.free "x", .sym "y" (.stored 0), .num (.fraction (3 / 2)), .free "x"]
    let value : Expr := .app .multiply [.num (.fraction (3 / 2)), .free "x"]
    product.meaning reciprocalStores (fun _ => 2) = some 3 ∧
      (product.evaluate reciprocalStores).value = .ok value ∧
      value.IsExact ∧ value.meaning reciprocalStores (fun _ => 2) = some 3 ∧
      (product.evaluate reciprocalStores).stores = reciprocalStores := by
  have hmeaning : (Expr.app .multiply
      [.free "x", .sym "y" (.stored 0), .num (.fraction (3 / 2)), .free "x"]).meaning
      reciprocalStores (fun _ => 2) = some 3 := by decide +kernel
  have hvalue : ((Expr.app .multiply
      [.free "x", .sym "y" (.stored 0), .num (.fraction (3 / 2)), .free "x"]).evaluate
      reciprocalStores).value = .ok (.app .multiply [.num (.fraction (3 / 2)), .free "x"]) := by
    cbv
  exact ⟨hmeaning, hvalue, meaning_evaluate resolved_reciprocalStores hmeaning hvalue⟩

end Expr

end Reckoner
