import Reckoner.Proofs.Simplify.Steps

/-!
# What expressions are made of

A `Material` says which numbers, symbols and operators may occur in an expression. Simplification
brings in nothing from outside: what an application is made of, its simplified form is made of, as
long as the material has the three arithmetic operators and its numbers are closed under arithmetic.
-/

namespace Reckoner

open Simplify

/-- Which numbers, symbols and operators may occur. -/
structure Material where
  /-- The numbers. -/
  number : Number → Prop
  /-- The symbols, by name and role. -/
  symbol : String → Role → Prop
  /-- The operators that are applied. -/
  operator : Operator → Prop

/-- Everything. -/
def Material.any : Material where
  number _ := True
  symbol _ _ := True
  operator _ := True

namespace Operator

/-- The operator is one of the three that compute. -/
def IsArithmetic (op : Operator) : Prop := op = .add ∨ op = .multiply ∨ op = .power

theorem isArithmetic_add : add.IsArithmetic := .inl rfl

theorem isArithmetic_multiply : multiply.IsArithmetic := .inr (.inl rfl)

theorem isArithmetic_power : power.IsArithmetic := .inr (.inr rfl)

/-- The operator is one of the two whose operands can be regrouped. -/
def IsMonoidal (op : Operator) : Prop := op = .add ∨ op = .multiply

theorem IsMonoidal.isArithmetic {op : Operator} (h : op.IsMonoidal) : op.IsArithmetic :=
  h.imp_right .inl

theorem IsMonoidal.isAssociative {op : Operator} (h : op.IsMonoidal) : op.isAssociative = true := by
  rcases h with rfl | rfl <;> rfl

theorem IsMonoidal.folds {op : Operator} (h : op.IsMonoidal) : op.folds = true := by
  rcases h with rfl | rfl <;> rfl

theorem IsArithmetic.eq_power {op : Operator} (h : op.IsArithmetic) (hop : ¬op.IsMonoidal) :
    op = .power := by
  rcases h with rfl | rfl | rfl
  · exact absurd (.inl rfl) hop
  · exact absurd (.inr rfl) hop
  · rfl

/-- The operator does not go by the name of one of the three that compute, unless it is that one. -/
def IsOrdinary (op : Operator) : Prop := ∀ op' : Operator, op'.IsArithmetic → op.name = op'.name →
  op = op'

/-- The operator is ordinary and not a definition. -/
def IsProper (op : Operator) : Prop := op.IsOrdinary ∧ ∀ id, op ≠ .define id

/-- No two arithmetic operators share a name. -/
theorem IsArithmetic.isOrdinary {op : Operator} (h : op.IsArithmetic) : op.IsOrdinary := by
  intro op' h' hn
  rcases h with rfl | rfl | rfl <;> rcases h' with rfl | rfl | rfl <;> simp_all [name]

theorem IsArithmetic.isProper {op : Operator} (h : op.IsArithmetic) : op.IsProper :=
  ⟨h.isOrdinary, by rcases h with rfl | rfl | rfl <;> simp⟩

theorem isOrdinary_define {id : StoreId} : (define id).IsOrdinary := by
  intro op' h' hn
  rcases h' with rfl | rfl | rfl <;> simp_all [name]

end Operator

namespace Expr

mutual

/-- Every number, symbol and operator of the expression belongs to the material. -/
def MadeOf (M : Material) : Expr → Prop
  | .num n => M.number n
  | .sym name role => M.symbol name role
  | .app op ps => M.operator op ∧ AllMadeOf M ps

/-- Every expression of the list is made of the material. -/
def AllMadeOf (M : Material) : List Expr → Prop
  | [] => True
  | p :: ps => p.MadeOf M ∧ AllMadeOf M ps

end

variable {M M' : Material}

theorem allMadeOf_iff {ps : List Expr} : AllMadeOf M ps ↔ ∀ p ∈ ps, p.MadeOf M := by
  induction ps with
  | nil => simp [AllMadeOf]
  | cons p ps ih => simp [AllMadeOf, ih]

@[simp] theorem madeOf_num {n : Number} : (Expr.num n).MadeOf M ↔ M.number n := by simp [MadeOf]

@[simp] theorem madeOf_sym {name : String} {role : Role} :
    (Expr.sym name role).MadeOf M ↔ M.symbol name role := by simp [MadeOf]

@[simp] theorem madeOf_app {op : Operator} {ps : List Expr} :
    (Expr.app op ps).MadeOf M ↔ M.operator op ∧ ∀ p ∈ ps, p.MadeOf M := by
  simp [MadeOf, allMadeOf_iff]

/-- A larger material will do for everything that is made of a smaller one. -/
theorem MadeOf.mono (hnumber : ∀ n, M.number n → M'.number n)
    (hsymbol : ∀ name role, M.symbol name role → M'.symbol name role)
    (hoperator : ∀ op, M.operator op → M'.operator op) {e : Expr} (h : e.MadeOf M) :
    e.MadeOf M' := by
  induction e using Expr.induction with
  | num n => exact madeOf_num.2 (hnumber n (madeOf_num.1 h))
  | sym name role => exact madeOf_sym.2 (hsymbol name role (madeOf_sym.1 h))
  | app op ps ih =>
    obtain ⟨hop, hps⟩ := madeOf_app.1 h
    exact madeOf_app.2 ⟨hoperator op hop, fun p hp => ih p hp (hps p hp)⟩

theorem madeOf_any (e : Expr) : e.MadeOf .any := by
  induction e using Expr.induction with
  | num n => exact madeOf_num.2 trivial
  | sym name role => exact madeOf_sym.2 trivial
  | app op ps ih => exact madeOf_app.2 ⟨trivial, ih⟩

mutual

/-- Whether the expression is made of the material can be decided if its parts can. -/
def decidableMadeOf [∀ n, Decidable (M.number n)] [∀ name role, Decidable (M.symbol name role)]
    [∀ op, Decidable (M.operator op)] : (e : Expr) → Decidable (e.MadeOf M)
  | .num n => inferInstanceAs (Decidable (M.number n))
  | .sym name role => inferInstanceAs (Decidable (M.symbol name role))
  | .app op ps =>
    have := decidableAllMadeOf ps
    inferInstanceAs (Decidable (M.operator op ∧ AllMadeOf M ps))

/-- The same for each of the expressions. -/
def decidableAllMadeOf [∀ n, Decidable (M.number n)] [∀ name role, Decidable (M.symbol name role)]
    [∀ op, Decidable (M.operator op)] : (ps : List Expr) → Decidable (AllMadeOf M ps)
  | [] => .isTrue trivial
  | p :: ps =>
    have := decidableMadeOf p
    have := decidableAllMadeOf ps
    inferInstanceAs (Decidable (p.MadeOf M ∧ AllMadeOf M ps))

end

/-! ## Parts -/

/-- Applications hand the property on to their parameters. -/
def Inherited (P : Expr → Prop) : Prop := ∀ op ps, P (.app op ps) → ∀ p ∈ ps, P p

theorem inherited_madeOf : Inherited (MadeOf M) := fun _ _ h => (madeOf_app.1 h).2

theorem Inherited.asPower? {P : Expr → Prop} (hP : Inherited P) {e b n : Expr} (h : P e)
    (hp : e.asPower? = some (b, n)) : P b ∧ P n := by
  obtain ⟨head, rfl, -⟩ := asPower?_eq_some hp
  have hps := hP _ _ h
  exact ⟨hps b (by simp), hps n (by simp)⟩

/-- Every expression is a power, if only with the exponent one. -/
theorem Inherited.powerParts {P : Expr → Prop} (hP : Inherited P) (hu : P (.num .unit)) {e : Expr}
    (h : P e) : P e.powerParts.1 ∧ P e.powerParts.2 := by
  unfold Expr.powerParts
  cases hp : e.asPower? with
  | none => exact ⟨h, hu⟩
  | some r => exact hP.asPower? h hp

/-- A term and its coefficient are made of what the product is made of. -/
theorem MadeOf.coefficient? {e term : Expr} {c : Number} (h : e.MadeOf M)
    (hu : M.number .unit) (hm : M.operator .multiply) (hc : e.coefficient? = some (c, term)) :
    M.number c ∧ term.MadeOf M := by
  rcases coefficient?_eq_some hc with ⟨-, rfl, rfl⟩ | ⟨head, ps, rfl, -, hterm⟩
  · exact ⟨hu, h⟩
  · rw [madeOf_app, List.forall_mem_cons, madeOf_num] at h
    obtain ⟨-, hnumber, hps⟩ := h
    refine ⟨hnumber, ?_⟩
    rcases hterm with rfl | ⟨-, rfl⟩
    · exact hps term (by simp)
    · exact madeOf_app.2 ⟨hm, hps⟩

end Expr

/-! ## Nodes -/

namespace Expr

mutual

/-- Every application in the expression has the property. -/
def EveryNode (P : Operator → List Expr → Prop) : Expr → Prop
  | .num _ => True
  | .sym _ _ => True
  | .app op ps => P op ps ∧ EveryNodeOf P ps

/-- Every application in the expressions has the property. -/
def EveryNodeOf (P : Operator → List Expr → Prop) : List Expr → Prop
  | [] => True
  | p :: ps => EveryNode P p ∧ EveryNodeOf P ps

end

variable {P : Operator → List Expr → Prop}

mutual

/-- Whether every application has a property that can be decided. -/
def decidableEveryNode [∀ op ps, Decidable (P op ps)] : (e : Expr) → Decidable (EveryNode P e)
  | .num _ => isTrue trivial
  | .sym _ _ => isTrue trivial
  | .app op ps =>
    have := decidableEveryNodeOf ps
    inferInstanceAs (Decidable (P op ps ∧ EveryNodeOf P ps))

/-- Whether every application in a list has a property that can be decided. -/
def decidableEveryNodeOf [∀ op ps, Decidable (P op ps)] :
    (ps : List Expr) → Decidable (EveryNodeOf P ps)
  | [] => isTrue trivial
  | p :: ps =>
    have := decidableEveryNode p
    have := decidableEveryNodeOf ps
    inferInstanceAs (Decidable (EveryNode P p ∧ EveryNodeOf P ps))

end

instance [∀ op ps, Decidable (P op ps)] (e : Expr) : Decidable (EveryNode P e) :=
  decidableEveryNode e

theorem everyNodeOf_iff {ps : List Expr} : EveryNodeOf P ps ↔ ∀ p ∈ ps, p.EveryNode P := by
  induction ps with
  | nil => simp [EveryNodeOf]
  | cons p ps ih => simp [EveryNodeOf, ih]

@[simp] theorem everyNode_num {n : Number} : (Expr.num n).EveryNode P := by simp [EveryNode]

@[simp] theorem everyNode_sym {name : String} {role : Role} : (Expr.sym name role).EveryNode P := by
  simp [EveryNode]

@[simp] theorem everyNode_app {op : Operator} {ps : List Expr} :
    (Expr.app op ps).EveryNode P ↔ P op ps ∧ ∀ p ∈ ps, p.EveryNode P := by
  simp [EveryNode, everyNodeOf_iff]

theorem inherited_everyNode : Inherited (EveryNode P) := fun _ _ h => (everyNode_app.1 h).2

/-- A weaker property holds at every node where the stronger one does. -/
theorem EveryNode.mono {Q : Operator → List Expr → Prop} (hPQ : ∀ op ps, P op ps → Q op ps)
    {e : Expr} (h : e.EveryNode P) : e.EveryNode Q := by
  induction e using Expr.induction with
  | num n => exact everyNode_num
  | sym name role => exact everyNode_sym
  | app op ps ih =>
    obtain ⟨hnode, hps⟩ := everyNode_app.1 h
    exact everyNode_app.2 ⟨hPQ op ps hnode, fun p hp => ih p hp (hps p hp)⟩

end Expr

/-! ## Closed materials -/

/-- The material has the arithmetic operators, and its numbers are closed under arithmetic. -/
structure Material.Closed (M : Material) : Prop where
  unit : M.number .unit
  integer : ∀ n, M.number (.integer n)
  compute : ∀ {op : Operator} {a b c}, M.number a → M.number b → op.compute? a b = some c →
    M.number c
  promote : ∀ {a b c d}, M.number a → M.number b → a.promote? b = some (c, d) →
    M.number c ∧ M.number d
  add : M.operator .add
  multiply : M.operator .multiply
  power : M.operator .power

/-- A material with all numbers needs only the operators. -/
theorem Material.closed_of_numbers {M : Material} (hnumber : ∀ n, M.number n)
    (harithmetic : ∀ op : Operator, op.IsArithmetic → M.operator op) : M.Closed where
  unit := hnumber _
  integer _ := hnumber _
  compute _ _ _ := hnumber _
  promote _ _ _ := ⟨hnumber _, hnumber _⟩
  add := harithmetic _ Operator.isArithmetic_add
  multiply := harithmetic _ Operator.isArithmetic_multiply
  power := harithmetic _ Operator.isArithmetic_power

namespace Simplify

variable {M : Material}

/-! ## Steps -/

/-- The simplifier of applications brings in nothing from outside. -/
def ReducerKeeps (M : Material) (f : Reducer) : Prop :=
  ∀ op ps e, M.operator op → (∀ p ∈ ps, p.MadeOf M) → (f op ps).value = .ok e → e.MadeOf M

/-- The step on two operands brings in nothing from outside. -/
def CombinerKeeps (M : Material) (c : Combiner) : Prop :=
  ∀ l r e, l.MadeOf M → r.MadeOf M → (c l r).value = .ok (some e) → e.MadeOf M

/-- Whatever becomes of two operands is made of what they are made of. -/
theorem Outcome.madeOf {reduce : Reducer} {op : Operator} {l r e : Expr} (hM : M.Closed)
    (hf : ReducerKeeps M reduce) (h : Outcome reduce op l r e) (hl : l.MadeOf M)
    (hr : r.MadeOf M) : e.MadeOf M := by
  -- each rule builds its result of the parts of the operands, with the numbers two, one and zero
  have htwo : (Expr.num .two).MadeOf M := hM.integer 2
  cases h with
  | alike h => exact hM.compute hl hr h
  | promoted hp h =>
    obtain ⟨ha, hb⟩ := hM.promote hl hr hp
    exact hM.compute ha hb h
  | zeroFactor => exact hM.integer 0
  | oneFactorLeft => exact hr
  | oneFactorRight => exact hl
  | square _ he => exact hf _ _ _ hM.power (by simp [hl, htwo]) he
  | powers _ hx he =>
    have hunit : (Expr.num .unit).MadeOf M := hM.unit
    have hpl := Expr.inherited_madeOf.powerParts hunit hl
    have hpr := Expr.inherited_madeOf.powerParts hunit hr
    have hx' := hf _ _ _ hM.add (by simp [hpl.2, hpr.2]) hx
    exact hf _ _ _ hM.power (by simp [hpl.1, hx']) he
  | zeroTermLeft => exact hr
  | zeroTermRight => exact hl
  | double _ he => exact hf _ _ _ hM.multiply (by simp [hl, htwo]) he
  | like hcl hcr _ hx he =>
    have hpl := hl.coefficient? hM.unit hM.multiply hcl
    have hpr := hr.coefficient? hM.unit hM.multiply hcr
    have hx' := hf _ _ _ hM.add (by simp [hpl.1, hpr.1]) hx
    exact hf _ _ _ hM.multiply (by simp [hpl.2, hx']) he
  | zeroExponent => exact hM.unit
  | oneExponent => exact hl
  | oneBase => exact hM.unit
  | zeroBase => exact hM.integer 0
  | tower hp _ hx he =>
    obtain ⟨hb, hm⟩ := Expr.inherited_madeOf.asPower? hl hp
    have hx' := hf _ _ _ hM.multiply (by simp [hm, hr]) hx
    exact hf _ _ _ hM.power (by simp [hb, hx']) he
  | chosen h =>
    rcases h with rfl | rfl
    · exact hl
    · exact hr
  | summed => exact hM.integer _

/-- A step brings in nothing from outside if the calls that it makes do not. -/
theorem combinerKeeps_combineStep {op : Operator} {reduce : Reducer} {combine : Combiner}
    (hM : M.Closed) (hop : M.operator op) (hf : ReducerKeeps M reduce)
    (hc : CombinerKeeps M combine) : CombinerKeeps M (combineStep reduce combine op) := by
  intro l r e hl hr h
  rcases combineStep_eq_some h with ho | ⟨ps, as, p, bs, q, ⟨-, head, rfl, -⟩, rfl, hq, he⟩
  · exact ho.madeOf hM hf hl hr
  · simp only [Expr.madeOf_app, List.mem_append, List.mem_cons] at hl
    have hp := hc _ _ _ (hl.2 p (by simp)) hr hq
    refine hf _ _ _ hop (fun x hx => ?_) he
    rcases List.mem_append.1 hx with hx | hx
    · exact hl.2 x (.inl hx)
    · rcases List.mem_cons.1 hx with rfl | hx
      · exact hp
      · exact hl.2 x (.inr (.inr hx))

/-! ## Folds -/

section Operands

variable {P : Expr → Prop} {name : String}

mutual

/-- The operands that are spliced in are parameters, and none of them has the same head. -/
theorem forall_mem_splice (hP : Expr.Inherited P) : (e : Expr) → P e →
    ∀ x ∈ splice name e, P x ∧ x.hasHead name = false
  | .num n, h => by simpa [splice, Expr.hasHead] using h
  | .sym s role, h => by simpa [splice, Expr.hasHead] using h
  | .app op ps, h => by
    unfold splice
    split
    · exact forall_mem_flatten hP ps (hP op ps h)
    · next hname => simpa [Expr.hasHead, h] using hname

theorem forall_mem_flatten (hP : Expr.Inherited P) : (ps : List Expr) → (∀ p ∈ ps, P p) →
    ∀ x ∈ flatten name ps, P x ∧ x.hasHead name = false
  | [], _ => by simp [flatten]
  | p :: ps, h => by
    rw [List.forall_mem_cons] at h
    intro x hx
    rw [flatten, List.mem_append] at hx
    rcases hx with hx | hx
    · exact forall_mem_splice hP p h.1 x hx
    · exact forall_mem_flatten hP ps h.2 x hx

end

/-- The operands of a fold have what the parameters have and hand on to theirs, and an associative
operator has none of its own applications left among them. -/
theorem forall_mem_operands (hP : Expr.Inherited P) {op : Operator} {ps : List Expr}
    (h : ∀ p ∈ ps, P p) :
    ∀ x ∈ operands op ps, P x ∧ (op.isAssociative = true → x.hasHead op.name = false) := by
  unfold operands
  split
  · intro x hx
    obtain ⟨hx, hhead⟩ := forall_mem_flatten hP ps h x hx
    exact ⟨hx, fun _ => hhead⟩
  · next hassoc => exact fun x hx => ⟨h x hx, fun h => absurd h hassoc⟩

end Operands

theorem madeOf_join {op : Operator} {l r : Expr} (hop : M.operator op) (hl : l.MadeOf M)
    (hr : r.MadeOf M) : (join op l r).MadeOf M := by
  unfold join
  split
  · next head ps =>
    split
    · simp only [Expr.madeOf_app] at hl ⊢
      refine ⟨hl.1, fun x hx => ?_⟩
      rcases List.mem_append.1 hx with hx | hx
      · exact hl.2 x hx
      · rw [List.mem_singleton] at hx
        exact hx ▸ hr
    · simpa [hop, hr] using hl
  · simp [hop, hl, hr]

theorem madeOf_coefficientFirst {e : Expr} (hm : M.operator .multiply) (h : e.MadeOf M) :
    (coefficientFirst e).MadeOf M := by
  unfold coefficientFirst
  split
  · next op p ps =>
    split
    · simp only [Expr.madeOf_app, List.mem_cons, forall_eq_or_imp] at h
      simp only [Expr.madeOf_app, List.mem_append, List.mem_filter, List.mem_cons]
      refine ⟨hm, fun x hx => ?_⟩
      rcases hx with hx | rfl | hx
      · exact h.2.2 x hx.1
      · exact h.2.1
      · exact h.2.2 x hx.1
    · exact h
  · exact h

/-- The fold over the operands hands on what its steps hand on. -/
theorem reducerKeeps_reduceStep {combine : Operator → Combiner} (hM : M.Closed)
    (hc : ∀ op, M.operator op → CombinerKeeps M (combine op)) :
    ReducerKeeps M fun op ps => reduceStep (combine op) op ps := by
  intro op ps e hop hps h
  rcases reduceStep_eq_ok h with ⟨-, rfl⟩ | ⟨-, -, rfl⟩ | ⟨p, qs, e', -, heq, hfold, hfin⟩
  · exact Expr.madeOf_app.2 ⟨hop, hps⟩
  · cases op with
    | add => exact hM.integer 0
    | multiply => exact hM.unit
    | _ => simpa [emptyApplication] using hop
  · have hops : ∀ x ∈ operands op ps, x.MadeOf M :=
      fun x hx => (forall_mem_operands Expr.inherited_madeOf hps x hx).1
    rw [heq] at hops
    have he' := foldOperands_induction
      (I := fun l rest => l.MadeOf M ∧ ∀ x ∈ rest, x.MadeOf M)
      (fun l r rest x hinv hx =>
        ⟨hc op hop _ _ _ hinv.1 (hinv.2 r (by simp)) hx, fun y hy => hinv.2 y (by simp [hy])⟩)
      (fun l r rest hinv _ =>
        ⟨madeOf_join hop hinv.1 (hinv.2 r (by simp)), fun y hy => hinv.2 y (by simp [hy])⟩)
      ⟨hops p (by simp), fun x hx => hops x (by simp [hx])⟩ hfold
    rcases finish_eq_ok hfin with ⟨-, -, rfl⟩ | ⟨-, rfl⟩
    · exact madeOf_coefficientFirst hM.multiply he'.1
    · exact he'.1

/-! ## Applications -/

/-- A simplified application is made of what the application is made of. -/
theorem madeOf_reduce (hM : M.Closed) {op : Operator} {ps : List Expr} {e : Expr}
    (hop : M.operator op) (hps : ∀ p ∈ ps, p.MadeOf M) (h : (reduce op ps).value = .ok e) :
    e.MadeOf M :=
  (within_induction (R := ReducerKeeps M) (C := fun op c => M.operator op → CombinerKeeps M c)
    (fun _ _ _ _ _ h => by simp at h) (fun _ _ _ _ _ _ _ h => by simp at h)
    (fun _ hc => reducerKeeps_reduceStep hM hc)
    (fun _ _ _ hf hc hop => combinerKeeps_combineStep hM hop hf (hc hop))
    (depthFor op ps)).1 op ps e hop hps h

end Simplify

end Reckoner
