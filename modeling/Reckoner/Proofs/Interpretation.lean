import Reckoner.Grammar.Reader
import Reckoner.Proofs.Meaning
import Mathlib.Algebra.BigOperators.Ring.List
import Mathlib.Tactic.Ring

/-!
# Interpretations

To compare expressions without knowing what powers are, sums and products are read as those of
rational numbers and powers as any function at all, as long as a power with exponent `-1` is a
reciprocal. Division by zero gives zero, as it does in the rational numbers. Every expression has a
value then, and the trees that the grammar builds have the values that the text suggests.
-/

namespace Reckoner

/-- What powers and symbols stand for. -/
structure Interpretation where
  /-- The power of a base with an exponent. -/
  power : ℚ → ℚ → ℚ
  /-- Reciprocals are what they should be. -/
  power_minusOne : ∀ b, power b (-1) = b⁻¹
  /-- The power without parameters. -/
  noPower : ℚ
  /-- The symbols by name. -/
  symbol : String → ℚ

namespace Interpretation

/-- The value of an application at the values of its parameters. -/
def apply (I : Interpretation) : Operator → List ℚ → ℚ
  | .add, vs => vs.sum
  | .multiply, vs => vs.prod
  | .power, [] => I.noPower
  | .power, b :: es => es.foldl I.power b
  | _, _ => 0

end Interpretation

/-- The value of a literal; doubles count as zero. -/
def Number.value (n : Number) : ℚ := n.toRat?.getD 0

theorem Number.value_eq {n : Number} {q : ℚ} (h : n.toRat? = some q) : n.value = q := by
  rw [Number.value, h]
  rfl

namespace Expr

mutual

/-- The value of an expression. -/
def value (I : Interpretation) : Expr → ℚ
  | .num n => n.value
  | .sym name _ => I.symbol name
  | .app op ps => I.apply op (values I ps)

/-- The values of the expressions of a list. -/
def values (I : Interpretation) : List Expr → List ℚ
  | [] => []
  | p :: ps => value I p :: values I ps

end

variable {I : Interpretation}

theorem values_eq_map (ps : List Expr) : values I ps = ps.map (value I) := by
  induction ps with
  | nil => rfl
  | cons p ps ih => rw [values, ih, List.map_cons]

@[simp] theorem value_num (n : Number) : (Expr.num n).value I = n.value := by rw [value]

@[simp] theorem value_sym (name : String) (role : Role) :
    (Expr.sym name role).value I = I.symbol name := by rw [value]

/-- An application has the value that its operator gives for the values of the parameters. -/
theorem value_app (op : Operator) (ps : List Expr) :
    (Expr.app op ps).value I = I.apply op (ps.map (value I)) := by rw [value, values_eq_map]

theorem value_multiply (ps : List Expr) :
    (Expr.app .multiply ps).value I = (ps.map (value I)).prod := value_app _ _

theorem value_power (b e : Expr) :
    (Expr.app .power [b, e]).value I = I.power (b.value I) (e.value I) := value_app _ _

end Expr

/-! ## Trees that the grammar builds -/

theorem Number.value_of_negateExact? {n m : Number} (h : n.negateExact? = some m) :
    m.value = -n.value := by
  cases n <;> cases h <;> simp [value, toRat?]

/-- A minus sign before factors turns their product into its opposite. -/
theorem prod_negateFactors (I : Interpretation) (es : List Expr) :
    ((negateFactors es).map (Expr.value I)).prod = -(es.map (Expr.value I)).prod := by
  have hone : (Expr.num .minusOne).value I = -1 := by simp [Number.value, Number.minusOne]
  unfold negateFactors
  split
  · split
    · next m hm => simp [Number.value_of_negateExact? hm]
    · simp [hone]
  · simp [hone]

namespace Scope

/-- The arithmetic operators go by their names. -/
def IsArithmetic (s : Scope) : Prop := ∀ op : Operator, op.IsArithmetic →
  s.operator? op.name = some op

variable {s : Scope}

/-- Where the names of arithmetic mean arithmetic, the reader applies what is written. -/
theorem IsArithmetic.apply_eq (h : s.IsArithmetic) {op : Operator} (hop : op.IsArithmetic)
    (ps : List Expr) : s.apply op ps = .app op ps := by
  simp [Scope.apply, current, h op hop]

/-- Joined items have the sum or the product of their values, and a single item keeps its own. -/
theorem IsArithmetic.value_join (h : s.IsArithmetic) (I : Interpretation) {op : Operator}
    (hop : op.IsMonoidal) (es : List Expr) :
    (s.join op es).value I = I.apply op (es.map (Expr.value I)) := by
  unfold join
  split
  · next e => rcases hop with rfl | rfl <;> simp [Interpretation.apply]
  · rw [h.apply_eq hop.isArithmetic, Expr.value_app]

/-- What stands after a slash counts with its reciprocal. -/
theorem IsArithmetic.value_reciprocal (h : s.IsArithmetic) (I : Interpretation) (d : Expr) :
    (s.apply .power [d, .num .minusOne]).value I = (d.value I)⁻¹ := by
  rw [h.apply_eq Operator.isArithmetic_power, Expr.value_power, ← I.power_minusOne]
  simp [Number.value, Number.minusOne]

/-- A chain of divisions divides by each of its divisors, whether it was read as a ratio or as a
product. -/
theorem IsArithmetic.value_quotient (h : s.IsArithmetic) (I : Interpretation) (e : Expr)
    (ds : List Expr) :
    (s.quotient e ds).value I = e.value I * (ds.map fun d => (d.value I)⁻¹).prod := by
  unfold quotient
  split
  · simp
  · simp [Number.value, Rat.divInt_eq_div, div_eq_mul_inv]
  · rw [h.apply_eq Operator.isArithmetic_multiply, Expr.value_multiply, List.map_cons,
      List.prod_cons, List.map_map]
    congr 2
    exact List.map_congr_left fun d _ => h.value_reciprocal I d

theorem IsArithmetic.chain_concat (h : s.IsArithmetic) (e : Expr) (es : List Expr) (x : Expr) :
    s.chain .power e (es ++ [x]) = .app .power [s.chain .power e es, x] := by
  simp [chain, h.apply_eq Operator.isArithmetic_power]

end Scope

end Reckoner
