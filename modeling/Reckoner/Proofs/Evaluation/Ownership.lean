import Reckoner.Proofs.Calculator
import Reckoner.Proofs.Evaluation.Agreement
import Reckoner.Proofs.Grammar.Material
import Reckoner.Proofs.Registry

/-!
# Expressions of one registry

What is read for a registry looks variables up in that registry alone, and its definitions bind
there alone; the values that are bound have the same property. So a calculator with expressions of
its own neither sees nor changes any other registry.
-/

namespace Reckoner

/-! ## Ownership -/

/-- If the operator is a definition, it binds in the registry of the identifier. -/
def Operator.BindsIn (id : StoreId) (op : Operator) : Prop := ∀ id', op = .define id' → id' = id

theorem Operator.IsArithmetic.bindsIn {op : Operator} (h : op.IsArithmetic) (id : StoreId) :
    op.BindsIn id := by
  intro id' hop
  rcases h with rfl | rfl | rfl <;> cases hop

theorem Operator.bindsIn_define (id : StoreId) : (define id).BindsIn id := by
  intro id' h
  cases h
  rfl

/-- What looks variables up and binds them in one registry only. -/
def Material.ownedBy (id : StoreId) : Material where
  number _ := True
  symbol _ role := ∀ id', role = .stored id' → id' = id
  operator op := op.BindsIn id

/-- The expression looks variables up and binds them in the registry of the identifier only. -/
def Expr.IsOwnedBy (id : StoreId) (e : Expr) : Prop := e.MadeOf (.ownedBy id)

/-- Simplification brings no operator of another registry in. -/
theorem Material.closed_ownedBy (id : StoreId) : (Material.ownedBy id).Closed :=
  closed_of_numbers (fun _ => trivial) fun _ hop => hop.bindsIn id

namespace Registry

/-- The definitions that can be called bind in the registry of the identifier. -/
def BindsIn (id : StoreId) (r : Registry) : Prop :=
  ∀ name op, r.operators.get? name = some op → op.BindsIn id

/-- The operators and the values of the variables belong to the registry of the identifier. -/
structure OwnedBy (id : StoreId) (r : Registry) : Prop where
  operators : r.BindsIn id
  bindings : r.Binds (Expr.IsOwnedBy id)

variable {id : StoreId} {r r' : Registry}

theorem bindsIn_fresh (id : StoreId) : (fresh id).BindsIn id :=
  operators_fresh (fun _ hop => hop.bindsIn id) (Operator.bindsIn_define id)

/-- What is read for a registry belongs to it, whatever its variables are bound to. -/
theorem BindsIn.read (hr : r.BindsIn id) {text : String} {e : Expr}
    (h : (r.scope id).read text = .ok e) : e.IsOwnedBy id := by
  have hoperator : ∀ name op, (r.scope id).operator? name = some op →
      (Material.ownedBy id).operator op := hr
  have hgives : (r.scope id).Gives (fun _ => True) (.ownedBy id) := by
    refine Scope.gives_of_operators (fun _ => trivial) (fun _ _ hrole => hrole) ?_ ?_ ?_
    · exact fun _ hop => Scope.operator_current hoperator (hop.bindsIn id)
    · exact fun _ _ _ => Scope.operator_current hoperator (Operator.bindsIn_define id)
    · exact fun _ _ _ _ hop => hoperator _ _ hop
  exact Scope.madeOf_readWithin hgives (fun _ _ => trivial) h

theorem ownedBy_fresh (id : StoreId) : (fresh id).OwnedBy id := ⟨bindsIn_fresh id, binds_fresh id⟩

theorem OwnedBy.lookup (hr : r.OwnedBy id) (name : String) :
    ((r.bindings.get? name).getD (.free name)).IsOwnedBy id :=
  hr.bindings.lookup (Expr.madeOf_sym.2 fun _ hrole => by cases hrole)

/-- Binding a value of its own keeps a registry to itself. -/
theorem OwnedBy.define {name : String} {value : Expr} (hr : r.OwnedBy id)
    (hv : value.IsOwnedBy id) (h : r.define name value = .ok r') : r'.OwnedBy id := by
  refine ⟨?_, hr.bindings.define hv h⟩
  obtain rfl := eq_of_define h
  exact hr.operators

theorem OwnedBy.undefine (name : String) (hr : r.OwnedBy id) : (r.undefine name).OwnedBy id :=
  ⟨hr.operators, hr.bindings.undefine name⟩

theorem OwnedBy.clear (hr : r.OwnedBy id) : r.clear.OwnedBy id := ⟨hr.operators, Binds.clear⟩

end Registry

/-! ## Local judgements -/

namespace Calculation

/-- A judgement about calculations that look at one registry and change it. -/
structure Local (id : StoreId) (H : {α : Type} → Calculation α → (α → Prop) → Prop) : Prop where
  logic : Logic H
  note : ∀ {e : Event}, H (Calculation.note e) fun _ => True
  mapError : ∀ {α : Type} {x : Calculation α} {Q : α → Prop}
    {f : CalculationError → CalculationError}, H x Q → H (x.mapError f) Q
  ofLogged : ∀ {α : Type} {x : Logged α} {Q : α → Prop}, (∀ a, x.value = .ok a → Q a) →
    H (Calculation.ofLogged x) Q
  registry : H (Calculation.registry id) (Registry.OwnedBy id)
  put : ∀ {r : Registry}, r.OwnedBy id → H (Calculation.put id r) fun _ => True

namespace Local

variable {id : StoreId} {H : {α : Type} → Calculation α → (α → Prop) → Prop}

/-- A symbol of the registry asks for a variable of that registry alone. -/
theorem symbolValue (h : Local id H) {name : String} {role : Role}
    (hrole : ∀ id', role = .stored id' → id' = id) :
    H (Expr.symbolValue name role) (Expr.IsOwnedBy id) := by
  cases role with
  | stored id' =>
    obtain rfl := hrole id' rfl
    exact h.logic.bind h.registry fun r hr => h.logic.pure (hr.lookup name)
  | free => exact h.logic.pure (Expr.madeOf_sym.2 hrole)
  | operator op => exact h.logic.pure (Expr.madeOf_sym.2 hrole)

/-- A definition of the registry stores into that registry alone. -/
theorem assign (h : Local id H) {name : String} {value : Expr} (hv : value.IsOwnedBy id) :
    H (Expr.assign id name value) fun _ => True := by
  unfold Expr.assign
  refine h.logic.bind h.registry fun r hr => ?_
  refine h.logic.bind (h.logic.ofExcept fun r' hr' => hr.define hv hr') fun r' hr' => ?_
  exact h.logic.bind (h.put hr') fun _ _ => h.note

/-- A local judgement holds of every expression that belongs to the registry. -/
theorem runs (h : Local id H) : (Material.ownedBy id).Runs H (Expr.IsOwnedBy id) where
  logic := h.logic
  number := Expr.madeOf_num.2
  symbol := h.symbolValue
  assign hdef hv := by
    obtain rfl := hdef _ rfl
    exact h.assign hv
  reduce hop _ hps := h.ofLogged fun _ he =>
    Simplify.madeOf_reduce (Material.closed_ownedBy id) hop hps he

/-- A calculator that evaluates expressions of its own registry works on that registry. -/
theorem obeys {c : Calculator} (h : Local c.store H) :
    c.Obeys H (Registry.OwnedBy c.store) (Expr.IsOwnedBy c.store) (Expr.IsOwnedBy c.store) where
  logic := h.logic
  note := h.note
  mapError := h.mapError
  registry := h.registry
  reads hr he := hr.operators.read he
  evaluates {e} he := h.runs.evaluateWithin Expr.maxDepth e he
  assigns := h.assign
  undefines name hr := h.put (hr.undefine name)
  clears hr := h.put hr.clear

end Local

end Calculation

/-! ## What a calculator sees and what it changes -/

namespace Stores

/-- The two states have the same registry under the identifier, and it belongs there. -/
def SameOwn (id : StoreId) (s s' : Stores) : Prop :=
  s.registry id = s'.registry id ∧ (s.registry id).OwnedBy id

/-- The registry under the identifier belongs there, and the other ones are those of `s₀`. -/
def OwnChanged (id : StoreId) (s₀ s : Stores) : Prop :=
  (s.registry id).OwnedBy id ∧ ∀ id', id' ≠ id → s.registry id' = s₀.registry id'

variable {id : StoreId} {s s' s₀ : Stores} {r : Registry}

theorem SameOwn.put (hr : r.OwnedBy id) : SameOwn id (s.put id r) (s'.put id r) := by
  have hput : ∀ t : Stores, (t.put id r).registry id = r := by
    intro t
    rw [registry_put, if_pos rfl]
  refine ⟨?_, ?_⟩
  · rw [hput, hput]
  · rw [hput]
    exact hr

theorem OwnChanged.put (hs : OwnChanged id s₀ s) (hr : r.OwnedBy id) :
    OwnChanged id s₀ (s.put id r) := by
  refine ⟨?_, fun id' hne => ?_⟩
  · rw [registry_put, if_pos rfl]
    exact hr
  · rw [registry_put, if_neg fun h => hne h.symm]
    exact hs.2 id' hne

end Stores

namespace Calculation

/-- Nothing but the own registry is seen. -/
theorem local_agrees (id : StoreId) : Local id (Agrees (Stores.SameOwn id)) where
  logic := logic_agrees
  note := Agrees.note
  mapError := Agrees.mapError
  ofLogged := Agrees.ofLogged
  registry := Agrees.registry fun _ _ hs => hs
  put hr := Agrees.put fun _ _ _ => .put hr

/-- Nothing but the own registry is changed. -/
theorem local_keeps (id : StoreId) (s₀ : Stores) : Local id (Keeps (Stores.OwnChanged id s₀)) where
  logic := logic_keeps
  note := Keeps.note
  mapError := Keeps.mapError
  ofLogged := Keeps.ofLogged
  registry := Keeps.registry fun _ hs => hs.1
  put hr := Keeps.put fun _ hs => hs.put hr

end Calculation

end Reckoner
