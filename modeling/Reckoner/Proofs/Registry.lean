import Reckoner.Registry
import Reckoner.Proofs.Simplify.Material

/-!
# What registries hold

A property of all operators or of all values of a registry is kept by what changes the registry, as
long as new operators and new values have it.
-/

namespace Reckoner.Registry

variable {r r' : Registry}

/-! ## Operators -/

/-- The built-in operators are the arithmetic ones and the definition. -/
theorem operators_fresh {O : Operator → Prop} {id : StoreId}
    (harithmetic : ∀ op : Operator, op.IsArithmetic → O op)
    (hdefine : O (.define id)) (name : String) (op : Operator)
    (h : (fresh id).operators.get? name = some op) : O op := by
  simp only [fresh, Table.get?, List.map_cons, List.map_nil, Table.find?] at h
  split at h
  · exact Option.some.inj h ▸ harithmetic _ Operator.isArithmetic_add
  split at h
  · exact Option.some.inj h ▸ harithmetic _ Operator.isArithmetic_multiply
  split at h
  · exact Option.some.inj h ▸ harithmetic _ Operator.isArithmetic_power
  split at h
  · exact Option.some.inj h ▸ hdefine
  · cases h

/-! ## Values -/

/-- The values of the variables have `P`. -/
def Binds (P : Expr → Prop) (r : Registry) : Prop :=
  ∀ name e, r.bindings.get? name = some e → P e

variable {P : Expr → Prop}

theorem binds_fresh (id : StoreId) : (fresh id).Binds P := by
  intro name e h
  simp [fresh] at h

/-- Looking a variable up gives its value, or a free variable. -/
theorem Binds.lookup (hr : r.Binds P) {name : String} (hfree : P (.free name)) :
    P ((r.bindings.get? name).getD (.free name)) := by
  cases h : r.bindings.get? name with
  | none => exact hfree
  | some e => exact hr name e h

/-- A definition that is not rejected only sets the variable. -/
theorem eq_of_define {name : String} {value : Expr} (h : r.define name value = .ok r') :
    r' = { r with bindings := r.bindings.set name value } := by
  unfold define at h
  split at h
  · cases h
  split at h
  · cases h
  cases h
  rfl

theorem Binds.define {name : String} {value : Expr} (hr : r.Binds P) (hv : P value)
    (h : r.define name value = .ok r') : r'.Binds P := by
  obtain rfl := eq_of_define h
  intro name' e he
  simp only [Table.get?_set] at he
  split at he
  · exact Option.some.inj he ▸ hv
  · exact hr name' e he

theorem Binds.undefine (hr : r.Binds P) (name : String) : (r.undefine name).Binds P := by
  intro name' e he
  simp only [Registry.undefine, Table.get?_erase] at he
  split at he
  · cases he
  · exact hr name' e he

theorem Binds.clear : r.clear.Binds P := by
  intro name e he
  simp [Registry.clear] at he

/-- An operator that is registered only sets its name. -/
theorem eq_of_register {op : Operator} (h : r.register op = .ok r') :
    r' = { r with operators := r.operators.set op.name op } := by
  unfold register at h
  split at h
  · cases h
    rfl
  · cases h

end Reckoner.Registry
