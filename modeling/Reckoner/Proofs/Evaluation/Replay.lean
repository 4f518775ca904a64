import Reckoner.Proofs.Evaluation.Ownership
import Reckoner.Proofs.Simplify.Silent
import Mathlib.Data.List.Basic

/-!
# What a failed calculation leaves behind

A definition binds its variable as soon as its value is there, wherever it stands in an expression,
and nothing is taken back when a later part fails. The trace says which definitions came to that: in
every calculation, successful or not, the registry afterwards is the one before with the definitions
of the trace replayed on it. So a text that cannot be read changes nothing, and neither does a
failed calculation whose only definition is the outermost one, since that one binds last.
-/

namespace Reckoner

/-! ## Replaying definitions -/

namespace Registry

/-- Binds variables one after the other. -/
def replay (r : Registry) (bs : List (String × Expr)) : Registry :=
  { r with bindings := bs.foldl (fun t b => t.set b.1 b.2) r.bindings }

@[simp] theorem replay_nil (r : Registry) : r.replay [] = r := rfl

theorem replay_append (r : Registry) (bs cs : List (String × Expr)) :
    r.replay (bs ++ cs) = (r.replay bs).replay cs := by
  simp [replay, List.foldl_append]

/-- A definition that succeeds is its own replay. -/
theorem replay_of_define {r r' : Registry} {name : String} {value : Expr}
    (h : r.define name value = .ok r') : r.replay [(name, value)] = r' := by
  obtain rfl := eq_of_define h
  rfl

end Registry

/-- The registry under the identifier is the one from before with variables bound, and the other
ones are those from before. -/
def Stores.Replayed (id : StoreId) (bs : List (String × Expr)) (s s' : Stores) : Prop :=
  ∀ id', s'.registry id' = if id' = id then (s.registry id).replay bs else s.registry id'

namespace Stores

variable {id : StoreId} {bs cs : List (String × Expr)} {s s' s'' : Stores}

theorem replayed_refl : Replayed id [] s s := by
  intro id'
  split
  · next h => rw [h, Registry.replay_nil]
  · rfl

theorem Replayed.trans (h : Replayed id bs s s') (h' : Replayed id cs s' s'') :
    Replayed id (bs ++ cs) s s'' := by
  intro id'
  have hown : s'.registry id = (s.registry id).replay bs := by rw [h id, if_pos rfl]
  rw [h' id', h id', hown, Registry.replay_append]
  split
  · rfl
  · rfl

/-- Storing what a definition gives replays that definition, and it touches no other registry. -/
theorem replayed_put {name : String} {value : Expr} {r : Registry}
    (h : (s.registry id).define name value = .ok r) :
    Replayed id [(name, value)] s (s.put id r) := by
  intro id'
  rw [registry_put, Registry.replay_of_define h]
  by_cases hid : id' = id
  · rw [if_pos hid, if_pos hid.symm]
  · rw [if_neg hid, if_neg fun heq => hid heq.symm]

end Stores

namespace Calculation

variable {α β : Type} {id : StoreId} {Q : α → Prop} {R : β → Prop}

/-- The registries afterwards, even after a failure, are those before with the definitions of the
trace replayed under the identifier. -/
def Replays (id : StoreId) (x : Calculation α) (Q : α → Prop) : Prop :=
  ∀ s, Stores.Replayed id (x s).trace.bindings s (x s).stores ∧ ∀ a, (x s).value = .ok a → Q a

theorem Replays.pure {a : α} (h : Q a) : Replays id (Pure.pure a : Calculation α) Q := by
  intro s
  refine ⟨Stores.replayed_refl, fun b hb => ?_⟩
  rw [pure_apply, Except.ok.injEq] at hb
  exact hb ▸ h

theorem Replays.fail {e : CalculationError} : Replays id (Calculation.fail e : Calculation α) Q :=
  fun _ => ⟨Stores.replayed_refl, fun b hb => by simp at hb⟩

/-- The definitions of the two parts are replayed in the order of the trace. -/
theorem Replays.bind {x : Calculation α} {f : α → Calculation β} (hx : Replays id x Q)
    (hf : ∀ a, Q a → Replays id (f a) R) : Replays id (x >>= f) R := by
  intro s
  obtain ⟨hstores, hQ⟩ := hx s
  cases hv : (x s).value with
  | error e =>
    rw [bind_of_error hv]
    exact ⟨hstores, fun b hb => by simp at hb⟩
  | ok a =>
    obtain ⟨hstores', hR⟩ := hf a (hQ a hv) (x s).stores
    rw [bind_of_ok hv]
    refine ⟨?_, hR⟩
    rw [Trace.bindings_append]
    exact hstores.trans hstores'

theorem logic_replays : Logic (Replays id) := ⟨Replays.pure, fun _ => Replays.fail, Replays.bind⟩

theorem Replays.note {e : Event} (h : e.binding? = none) :
    Replays id (Calculation.note e) fun _ => True := by
  intro s
  refine ⟨?_, fun _ _ => trivial⟩
  show Stores.Replayed id (Trace.one e).bindings s s
  rw [Trace.bindings_one h]
  exact Stores.replayed_refl

theorem Replays.registry {id' : StoreId} : Replays id (Calculation.registry id') fun _ => True :=
  fun _ => ⟨Stores.replayed_refl, fun _ _ => trivial⟩

/-- Simplification binds nothing, so its trace has nothing to replay. -/
theorem Replays.ofLogged {x : Logged α} (h : x.Silent) :
    Replays id (Calculation.ofLogged x) fun _ => True := by
  intro s
  refine ⟨?_, fun _ _ => trivial⟩
  show Stores.Replayed id x.trace.bindings s s
  rw [h]
  exact Stores.replayed_refl

theorem Replays.mapError {x : Calculation α} {f : CalculationError → CalculationError}
    (hx : Replays id x Q) : Replays id (x.mapError f) Q := by
  intro s
  obtain ⟨hstores, hQ⟩ := hx s
  exact ⟨hstores, fun a ha => hQ a (mapError_eq_ok.1 ha)⟩

/-- A definition that is not rejected is the one in its trace. -/
theorem replays_assign (id : StoreId) (name : String) (value : Expr) :
    Replays id (Expr.assign id name value) fun _ => True := by
  intro s
  refine ⟨?_, fun _ _ => trivial⟩
  rw [Expr.assign_apply]
  cases h : (s.registry id).define name value with
  | error e => exact Stores.replayed_refl
  | ok r => exact Stores.replayed_put h

/-- Every step of an evaluation replays its trace, for an expression of one registry. -/
theorem runs_replays (id : StoreId) :
    (Material.ownedBy id).Runs (Replays id) fun _ => True where
  logic := logic_replays
  number _ := trivial
  symbol {name role} _ := by
    cases role with
    | stored id' => exact Replays.registry.bind fun _ _ => Replays.pure trivial
    | free => exact Replays.pure trivial
    | operator op => exact Replays.pure trivial
  assign {id' name value} hdef _ := by
    obtain rfl := hdef _ rfl
    exact replays_assign id' name value
  reduce {op ps} _ _ _ := Replays.ofLogged (Simplify.silent_reduce op ps)

end Calculation

/-! ## Definitions that come last -/

namespace Calculation

variable {α β : Type}

/-- A failure leaves the registries as they were. -/
def Undone (x : Calculation α) : Prop := ∀ s e, (x s).value = .error e → (x s).stores = s

theorem Undone.bind {x : Calculation α} {f : α → Calculation β}
    (hx : ∀ s, Keeps (· = s) x fun _ => True) (hf : ∀ a, Undone (f a)) : Undone (x >>= f) := by
  intro s e h
  have hstores : (x s).stores = s := (hx s s rfl).1
  cases hv : (x s).value with
  | error e' =>
    rw [bind_of_error hv]
    exact hstores
  | ok a =>
    rw [bind_of_ok hv] at h ⊢
    have hundone := hf a (x s).stores e h
    exact hundone.trans hstores

theorem Keeps.undone {x : Calculation α} (hx : ∀ s, Keeps (· = s) x fun _ => True) : Undone x :=
  fun s _ _ => (hx s s rfl).1

/-- What never fails may follow. -/
theorem Undone.next {x : Calculation α} {f : α → Calculation β} (hx : Undone x)
    (hf : ∀ a s, ∃ b, (f a s).value = .ok b) : Undone (x >>= f) := by
  intro s e h
  cases hv : (x s).value with
  | error e' =>
    rw [bind_of_error hv]
    exact hx s e' hv
  | ok a =>
    obtain ⟨b, hb⟩ := hf a (x s).stores
    rw [bind_of_ok hv, hb] at h
    cases h

theorem Undone.mapError {x : Calculation α} {f : CalculationError → CalculationError}
    (hx : Undone x) : Undone (x.mapError f) := by
  intro s e h
  cases hv : (x s).value with
  | error e' => exact hx s e' hv
  | ok a =>
    have hok : (x.mapError f s).value = .ok a := mapError_eq_ok.2 hv
    rw [hok] at h
    cases h

/-- An assignment that fails has stored nothing. -/
theorem undone_assign (id : StoreId) (name : String) (value : Expr) :
    Undone (Expr.assign id name value) := by
  intro s e h
  rw [Expr.assign_apply] at h ⊢
  cases hdef : (s.registry id).define name value with
  | error err => rfl
  | ok r =>
    rw [hdef] at h
    cases h

end Calculation

namespace Expr

open Calculation

/-- No definition but the outermost one is evaluated. -/
def DefinesLast : Expr → Prop
  | .app (.define _) [_, e] => e.IsBindless
  | .app (.define _) _ => True
  | e => e.IsBindless

instance : (e : Expr) → Decidable e.DefinesLast
  | .app (.define _) [_, e] => inferInstanceAs (Decidable e.IsBindless)
  | .app (.define _) [] => .isTrue trivial
  | .app (.define _) [_] => .isTrue trivial
  | .app (.define _) (_ :: _ :: _ :: _) => .isTrue trivial
  | .app .add ps => inferInstanceAs (Decidable (Expr.app .add ps).IsBindless)
  | .app .multiply ps => inferInstanceAs (Decidable (Expr.app .multiply ps).IsBindless)
  | .app .power ps => inferInstanceAs (Decidable (Expr.app .power ps).IsBindless)
  | .app (.extension e) ps => inferInstanceAs (Decidable (Expr.app (.extension e) ps).IsBindless)
  | .num n => inferInstanceAs (Decidable (Expr.num n).IsBindless)
  | .sym name role => inferInstanceAs (Decidable (Expr.sym name role).IsBindless)

/-- A definition of an expression that binds nothing fails without a trace in the registries. -/
theorem undone_evaluateDefinition {e : Expr} (he : e.IsBindless) (depth : Nat) (id : StoreId)
    (target : Expr) : Undone (evaluateDefinition depth id [target, e]) := by
  rw [evaluateDefinition]
  have hname : ∀ s, Keeps (· = s) (targetName target) fun _ => True :=
    fun s => (runs_keeps (Material.yields_bindless s)).targetName fun _ _ => trivial
  refine Undone.bind hname fun name => ?_
  refine Undone.bind (he.keeps depth) fun value => ?_
  exact (undone_assign id name value).next fun _ _ => ⟨value, rfl⟩

/-- Where the only definition is the outermost one, a failure leaves the registries as they were. -/
theorem DefinesLast.undone {e : Expr} (he : e.DefinesLast) : Undone e.evaluate := by
  unfold DefinesLast at he
  split at he
  · exact undone_evaluateDefinition he _ _ _
  · next id ps hps =>
    have harity : ∀ depth, evaluateDefinition depth id ps =
        Calculation.fail (.definition (.parameterCount ps.length)) := by
      intro depth
      unfold evaluateDefinition
      split
      · exact absurd rfl (hps _ _ )
      · rfl
    show Undone (evaluateDefinition _ id ps)
    rw [harity]
    exact fun _ _ _ => rfl
  · exact Keeps.undone (he.keeps maxDepth)

end Expr

/-! ## Failed calculations -/

namespace Calculator

open Calculation

/-- The limit on nesting included, the registry after an evaluation is the one before with the trace
replayed. -/
theorem replays_evaluate (c : Calculator) {e : Expr} {id : StoreId} (he : e.IsOwnedBy id) :
    Replays id (c.evaluate e) fun _ => True := by
  unfold evaluate
  have hrun := (runs_replays id).evaluateWithin Expr.maxDepth e he
  exact hrun.mapError.bind fun _ _ => (Replays.note rfl).bind fun _ _ => Replays.pure trivial

/-- The limit on nesting only adds failures that come before anything is bound. -/
theorem undone_evaluate (c : Calculator) {e : Expr} (he : e.DefinesLast) :
    Undone (c.evaluate e) :=
  he.undone.mapError.next fun value _ => ⟨value, rfl⟩

variable {c : Calculator} {text : String} {s : Stores}

/-- A calculation leaves the registries as they were, but for the definitions that came to be before
it ended; if it fails, they are as they were where the text cannot be read, and where no definition
but the outermost one is evaluated. -/
theorem replay_of_calculate_error {e : CalculationError}
    (hown : (s.registry c.store).BindsIn c.store) (he : (c.calculate text s).value = .error e) :
    Stores.Replayed c.store (c.calculate text s).trace.bindings s (c.calculate text s).stores ∧
    (∀ err, ((s.registry c.store).scope c.store).read text = .error err →
      (c.calculate text s).stores = s) ∧
    ∀ t, ((s.registry c.store).scope c.store).read text = .ok t → t.DefinesLast →
      (c.calculate text s).stores = s := by
  refine ⟨?_, fun err herr => ?_, fun t ht hlast => ?_⟩
  · cases hread : ((s.registry c.store).scope c.store).read text with
    | error err =>
      rw [calculate_of_error hread]
      exact Stores.replayed_refl
    | ok t =>
      rw [calculate_of_ok hread]
      show Stores.Replayed c.store (Trace.one _ ++ _).bindings s _
      rw [Trace.bindings_append, Trace.bindings_one rfl, List.nil_append]
      exact (replays_evaluate c (hown.read hread) s).1
  · rw [calculate_of_error herr]
  · rw [calculate_of_ok ht] at he ⊢
    exact undone_evaluate c hlast s e he

/-- A failure does not take back what was bound before it. -/
theorem calculate_error_keeps_binding :
    let o := (Calculator.mk 0).calculate "DEFINE(x,1)+DEFINE(2,3)" .fresh
    o.value = .error (.definition (.notAssignable "2")) ∧
      (Stores.fresh.registry 0).bindings.contains "x" = false ∧
      (o.stores.registry 0).bindings.contains "x" = true := by
  intro o
  have hfails : o.value.map (fun _ => ()) = .error (.definition (.notAssignable "2")) := by
    decide +kernel
  have hbound : (o.stores.registry 0).bindings.contains "x" = true := by decide +kernel
  exact ⟨eq_error_of_map hfails, rfl, hbound⟩

/-- What is bound there is what the trace says; and where the definition `2=x+1` itself fails,
nothing is left behind. -/
theorem replay_of_calculate_error_partial :
    (∃ v, ((Calculator.mk 0).calculate "DEFINE(x,1)+DEFINE(2,3)" .fresh).value =
        .error (.definition (.notAssignable "2")) ∧ v.render = .ok "1" ∧
      Stores.Replayed 0 [("x", v)] .fresh
        ((Calculator.mk 0).calculate "DEFINE(x,1)+DEFINE(2,3)" .fresh).stores) ∧
    ((Calculator.mk 0).calculate "2=x+1" .fresh).value =
        .error (.definition (.notAssignable "2")) ∧
      ((Calculator.mk 0).calculate "2=x+1" .fresh).stores = .fresh := by
  have hown : (Stores.fresh.registry 0).BindsIn (Calculator.mk 0).store := Registry.bindsIn_fresh 0
  constructor
  · have hfails : ((Calculator.mk 0).calculate "DEFINE(x,1)+DEFINE(2,3)" .fresh).value =
        .error (.definition (.notAssignable "2")) := eq_error_of_map (by decide +kernel)
    have htrace : ((Calculator.mk 0).calculate "DEFINE(x,1)+DEFINE(2,3)" .fresh).trace.bindings.map
        (fun b => (b.1, b.2.render)) = [("x", .ok "1")] := by
      decide +kernel
    have hreplayed := (replay_of_calculate_error hown hfails).1
    obtain ⟨⟨name, v⟩, hbindings, hbinding⟩ := List.map_eq_singleton_iff.1 htrace
    obtain ⟨rfl, hv⟩ := Prod.mk.inj hbinding
    rw [hbindings] at hreplayed
    exact ⟨v, hfails, hv, hreplayed⟩
  · have hfails : ((Calculator.mk 0).calculate "2=x+1" .fresh).value =
        .error (.definition (.notAssignable "2")) := eq_error_of_map (by decide +kernel)
    have hany : (((Stores.fresh.registry 0).scope 0).read "2=x+1").toOption.any
        (fun t => decide t.DefinesLast) = true := by
      decide +kernel
    obtain ⟨t, ht, hlast⟩ := exists_eq_ok hany
    have hkept := (replay_of_calculate_error hown hfails).2.2 t ht (of_decide_eq_true hlast)
    exact ⟨hfails, hkept⟩

end Calculator

end Reckoner
