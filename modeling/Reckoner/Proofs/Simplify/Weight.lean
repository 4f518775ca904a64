import Reckoner.Proofs.Simplify.Apart

/-!
# Simplification makes expressions lighter

Whatever an operator makes of two operands weighs less than the two side by side, and an application
never gains weight when it is simplified. The rules that build new applications are the ones to look
at: each of them replaces the two operands by an application whose parameters, with their share for
being neighbours, stay below the weight that the operands had. Everything else either drops an
operand or only moves operands around.
-/

namespace Reckoner

open Simplify Logged

namespace Simplify

/-! ## Weights of lists -/

theorem one_le_shareOf (name : String) : 1 ≤ shareOf name := by
  unfold shareOf
  split
  · omega
  · split <;> omega

@[simp] theorem shareOf_add : shareOf Operator.add.name = 1 := by
  simp [shareOf, Operator.name]

@[simp] theorem shareOf_multiply : shareOf Operator.multiply.name = 2 := by
  simp [shareOf]

@[simp] theorem shareOf_power : shareOf Operator.power.name = 3 := by
  simp [shareOf, Operator.name]

/-- The weights of expressions, each with a share of its own. -/
def shares (share : Nat) : List Expr → Nat
  | [] => 0
  | p :: ps => weight p + share + shares share ps

@[simp] theorem shares_nil (share : Nat) : shares share [] = 0 := rfl

@[simp] theorem shares_cons (share : Nat) (p : Expr) (ps : List Expr) :
    shares share (p :: ps) = weight p + share + shares share ps := rfl

@[simp] theorem shares_append (share : Nat) (ps qs : List Expr) :
    shares share (ps ++ qs) = shares share ps + shares share qs := by
  induction ps with
  | nil => simp
  | cons p ps ih =>
    rw [List.cons_append, shares_cons, shares_cons, ih]
    omega

theorem shares_perm {share : Nat} {ps qs : List Expr} (h : ps.Perm qs) :
    shares share ps = shares share qs := by
  induction h with
  | nil => rfl
  | cons p _ ih => rw [shares_cons, shares_cons, ih]
  | swap p q ps =>
    simp only [shares_cons]
    omega
  | trans _ _ ih ih' => exact ih.trans ih'

/-- There is one pair of neighbours less than there are expressions. -/
theorem weightOfList_add_share (share : Nat) {ps : List Expr} (h : ps ≠ []) :
    weightOfList share ps + share = shares share ps := by
  induction ps with
  | nil => exact absurd rfl h
  | cons p ps ih =>
    cases ps with
    | nil => simp [weightOfList]
    | cons q ps =>
      have htail := ih (by simp)
      rw [weightOfList, shares_cons]
      simp only [List.isEmpty_cons, Bool.false_eq_true, if_false]
      omega

theorem weightOfList_pair (share : Nat) (l r : Expr) :
    weightOfList share [l, r] = weight l + weight r + share := by
  have hsum := weightOfList_add_share share (List.cons_ne_nil l [r])
  simp only [shares_cons, shares_nil] at hsum
  omega

/-! ## Weights of applications -/

@[simp] theorem weight_num (n : Number) : weight (.num n) = 2 := by rw [weight]

theorem weight_app (op : Operator) (ps : List Expr) :
    weight (.app op ps) =
      weightOfList (shareOf op.name) ps + if ps.length < 2 then 4 else 0 := by rw [weight]

theorem weight_pair (op : Operator) (l r : Expr) :
    weight (.app op [l, r]) = weight l + weight r + shareOf op.name := by
  rw [weight_app, weightOfList_pair]
  simp

/-- An application with its share weighs what its operands weigh side by side. -/
theorem weight_add_share (op : Operator) {ps : List Expr} (h : 2 ≤ ps.length) :
    weight (.app op ps) + shareOf op.name = shares (shareOf op.name) ps := by
  have hps : ps ≠ [] := List.ne_nil_of_length_pos (Nat.lt_of_lt_of_le Nat.zero_lt_two h)
  rw [weight_app, if_neg (Nat.not_lt.2 h)]
  exact weightOfList_add_share _ hps

theorem weightOfList_le_weight (op : Operator) (ps : List Expr) :
    weightOfList (shareOf op.name) ps ≤ weight (.app op ps) := by
  rw [weight_app]
  omega

theorem shares_le_weight (op : Operator) (ps : List Expr) :
    shares (shareOf op.name) ps ≤ weight (.app op ps) + shareOf op.name := by
  by_cases hps : ps = []
  · simp [hps]
  · have hsum := weightOfList_add_share (shareOf op.name) hps
    have hle := weightOfList_le_weight op ps
    omega

/-- Of two applications with as many operands, the lighter operands make the lighter one. -/
theorem weight_app_lt {op : Operator} {ps qs : List Expr} (hlength : qs.length = ps.length)
    (h : shares (shareOf op.name) qs < shares (shareOf op.name) ps) :
    weight (.app op qs) < weight (.app op ps) := by
  have hps : ps ≠ [] := by
    rintro rfl
    exact absurd h (Nat.not_lt_zero _)
  have hqs : qs ≠ [] := by
    rintro rfl
    exact hps (List.length_eq_zero_iff.1 hlength.symm)
  have hpsum := weightOfList_add_share (shareOf op.name) hps
  have hqsum := weightOfList_add_share (shareOf op.name) hqs
  rw [weight_app, weight_app, hlength]
  omega

/-! ### Bounds from below -/

mutual

/-- Nothing weighs less than a number. -/
theorem two_le_weight : (e : Expr) → 2 ≤ weight e
  | .num n => by simp
  | .sym name role => by simp [weight]
  | .app op ps => by
    have hps := two_mul_length_le (shareOf op.name) ps
    rw [weight_app]
    split <;> omega

theorem two_mul_length_le (share : Nat) : (ps : List Expr) → 2 * ps.length ≤ weightOfList share ps
  | [] => by simp
  | p :: ps => by
    have hp := two_le_weight p
    have hps := two_mul_length_le share ps
    rw [weightOfList, List.length_cons]
    omega

end

theorem add_two_mul_le_of_mem (share : Nat) {ps : List Expr} {p : Expr} (h : p ∈ ps) :
    weight p + 2 * (ps.length - 1) ≤ weightOfList share ps := by
  induction ps with
  | nil => cases h
  | cons q ps ih =>
    rw [weightOfList, List.length_cons]
    rcases List.mem_cons.1 h with rfl | h
    · have hps := two_mul_length_le share ps
      omega
    · have hq := two_le_weight q
      have hp := ih h
      have hpos := List.length_pos_of_mem h
      omega

/-- What is no number weighs at least twice as much. -/
theorem four_le_weight {e : Expr} (h : e.isNumber = false) : 4 ≤ weight e := by
  cases e with
  | num n => cases h
  | sym name role => simp [weight]
  | app op ps =>
    have hps := two_mul_length_le (shareOf op.name) ps
    rw [weight_app]
    split <;> omega

/-- A parameter is lighter than the application it belongs to. -/
theorem weight_lt_of_mem (op : Operator) {ps : List Expr} {p : Expr} (h : p ∈ ps) :
    weight p < weight (.app op ps) := by
  have hp := add_two_mul_le_of_mem (shareOf op.name) h
  have hpos := List.length_pos_of_mem h
  rw [weight_app]
  split <;> omega

mutual

/-- Expressions that are the same weigh the same. -/
theorem weight_eq_of_same : (a b : Expr) → a.same b = true → weight a = weight b
  | .num a, .num b, _ => by simp
  | .sym s _, .sym t _, _ => by simp [weight]
  | .app f ps, .app g qs, h => by
    simp only [Expr.same, Bool.and_eq_true, beq_iff_eq] at h
    obtain ⟨hlist, hlength⟩ := weightOfList_eq_of_sameList (shareOf f.name) ps qs h.2
    rw [weight_app, weight_app, ← h.1, hlist, hlength]
  | .num _, .sym _ _, h => by simp [Expr.same] at h
  | .num _, .app _ _, h => by simp [Expr.same] at h
  | .sym _ _, .num _, h => by simp [Expr.same] at h
  | .sym _ _, .app _ _, h => by simp [Expr.same] at h
  | .app _ _, .num _, h => by simp [Expr.same] at h
  | .app _ _, .sym _ _, h => by simp [Expr.same] at h

theorem weightOfList_eq_of_sameList (share : Nat) : (ps qs : List Expr) →
    Expr.sameList ps qs = true →
      weightOfList share ps = weightOfList share qs ∧ ps.length = qs.length
  | [], [], _ => ⟨rfl, rfl⟩
  | p :: ps, q :: qs, h => by
    rw [Expr.sameList, Bool.and_eq_true] at h
    have hp := weight_eq_of_same p q h.1
    obtain ⟨hps, hlength⟩ := weightOfList_eq_of_sameList share ps qs h.2
    have hempty : ps.isEmpty = qs.isEmpty := by
      rw [Bool.eq_iff_iff, List.isEmpty_iff_length_eq_zero, List.isEmpty_iff_length_eq_zero,
        hlength]
    refine ⟨?_, by simp [hlength]⟩
    rw [weightOfList, weightOfList, hp, hps, hempty]
  | [], _ :: _, h => by simp [Expr.sameList] at h
  | _ :: _, [], h => by simp [Expr.sameList] at h

end

/-! ## Weights of parts -/

theorem weight_of_asPower? {e b n : Expr} (h : e.asPower? = some (b, n)) :
    weight e = weight b + weight n + 3 := by
  obtain ⟨head, rfl, hname⟩ := Expr.asPower?_eq_some h
  rw [weight_pair, hname, shareOf_power]

/-- The unit is the exponent of what is no power, and weighs nothing there. -/
theorem weight_powerParts (e : Expr) :
    weight e = weight e.powerParts.1 + weight e.powerParts.2 + 3 ∨
      (weight e = weight e.powerParts.1 ∧ e.powerParts.2 = .num .unit) := by
  unfold Expr.powerParts
  cases h : e.asPower? with
  | none => exact .inr ⟨rfl, rfl⟩
  | some r => exact .inl (weight_of_asPower? h)

/-- A coefficient adds four to the weight of its term, and a term without one weighs at least
that. -/
theorem weight_of_coefficient? {e term : Expr} {c : Number} (h : e.coefficient? = some (c, term)) :
    weight e = weight term + 4 ∨ (e = term ∧ 4 ≤ weight term) := by
  rcases Expr.coefficient?_eq_some h with ⟨hnum, -, rfl⟩ | ⟨head, ps, rfl, hname, hterm⟩
  · exact .inr ⟨rfl, four_le_weight hnum⟩
  · left
    rcases hterm with rfl | ⟨htwo, rfl⟩
    · rw [weight_pair, hname, shareOf_multiply, weight_num]
      omega
    · have hlength : 2 ≤ (Expr.num c :: ps).length := Nat.le_succ_of_le htwo
      have hall := weight_add_share head hlength
      have hrest := weight_add_share .multiply htwo
      rw [hname, shareOf_multiply, shares_cons, weight_num] at hall
      rw [shareOf_multiply] at hrest
      omega

/-! ## Applications that the rules build -/

section Rules

variable {l r x : Expr}

theorem weight_square_lt (h : l.same r = true) (hn : l.isNumber = false ∨ r.isNumber = false) :
    weight (.app .power [l, .num .two]) < weight l + weight r + 2 := by
  have hnumber : l.isNumber = false := by
    have hboth := Expr.isNumber_eq_of_same h
    rcases hn with hl | hr
    · exact hl
    · rw [hboth, hr]
  have hfour := four_le_weight hnumber
  have hsame := weight_eq_of_same l r h
  rw [weight_pair, shareOf_power, weight_num]
  omega

theorem weight_double_lt (h : l.same r = true) (hn : l.isNumber = false ∨ r.isNumber = false) :
    weight (.app .multiply [.num .two, l]) < weight l + weight r + 1 := by
  have hsquare := weight_square_lt h hn
  rw [weight_pair, shareOf_power, weight_num] at hsquare
  rw [weight_pair, shareOf_multiply, weight_num]
  omega

/-- The weight that the exponents of two powers of one base leave for the base. -/
theorem weight_exponents_le (h : l.powerParts.1.same r.powerParts.1 = true)
    (hu : l.powerParts.2.isUnit = false ∨ r.powerParts.2.isUnit = false) :
    weight l.powerParts.1 + weight l.powerParts.2 + weight r.powerParts.2 + 5 ≤
      weight l + weight r + 2 := by
  have hsame := weight_eq_of_same _ _ h
  have hbase := two_le_weight l.powerParts.1
  rcases weight_powerParts l with hl | ⟨hl, hlu⟩
  · rcases weight_powerParts r with hr | ⟨hr, hru⟩
    · omega
    · rw [hru, weight_num]
      omega
  · rcases weight_powerParts r with hr | ⟨hr, hru⟩
    · rw [hlu, weight_num]
      omega
    · rw [hlu, hru] at hu
      rcases hu with hu | hu <;> cases hu

theorem weight_exponentSum_lt (h : l.powerParts.1.same r.powerParts.1 = true)
    (hu : l.powerParts.2.isUnit = false ∨ r.powerParts.2.isUnit = false) :
    weight (.app .add [l.powerParts.2, r.powerParts.2]) < weight l + weight r + 2 := by
  have hle := weight_exponents_le h hu
  rw [weight_pair, shareOf_add]
  omega

/-- A power with the sum of two exponents is lighter than the two powers. -/
theorem weight_powers_lt (h : l.powerParts.1.same r.powerParts.1 = true)
    (hu : l.powerParts.2.isUnit = false ∨ r.powerParts.2.isUnit = false)
    (hx : weight x ≤ weight (.app .add [l.powerParts.2, r.powerParts.2])) :
    weight (.app .power [l.powerParts.1, x]) < weight l + weight r + 2 := by
  have hle := weight_exponents_le h hu
  rw [weight_pair, shareOf_add] at hx
  rw [weight_pair, shareOf_power]
  omega

variable {term term' : Expr} {a b : Number}

/-- Like terms that are not the same do not both go without a coefficient. -/
theorem weight_terms_le (hl : l.coefficient? = some (a, term))
    (hr : r.coefficient? = some (b, term')) (h : term.same term' = true) (hne : l.same r = false) :
    weight term + 9 ≤ weight l + weight r + 1 := by
  have hsame := weight_eq_of_same _ _ h
  rcases weight_of_coefficient? hl with hlw | ⟨rfl, hlw⟩
  · rcases weight_of_coefficient? hr with hrw | ⟨rfl, hrw⟩
    · omega
    · omega
  · rcases weight_of_coefficient? hr with hrw | ⟨rfl, hrw⟩
    · omega
    · rw [h] at hne
      cases hne

theorem weight_coefficients_lt (hl : l.coefficient? = some (a, term))
    (hr : r.coefficient? = some (b, term')) (h : term.same term' = true)
    (hne : l.same r = false) :
    weight (.app .add [.num a, .num b]) < weight l + weight r + 1 := by
  have hle := weight_terms_le hl hr h hne
  rw [weight_pair, shareOf_add, weight_num, weight_num]
  omega

/-- A term with the sum of two coefficients is lighter than the two terms. -/
theorem weight_like_lt (hl : l.coefficient? = some (a, term))
    (hr : r.coefficient? = some (b, term')) (h : term.same term' = true) (hne : l.same r = false)
    (hx : weight x ≤ weight (.app .add [.num a, .num b])) :
    weight (.app .multiply [x, term]) < weight l + weight r + 1 := by
  have hle := weight_terms_le hl hr h hne
  rw [weight_pair, shareOf_add, weight_num, weight_num] at hx
  rw [weight_pair, shareOf_multiply]
  omega

variable {base m : Expr}

theorem weight_exponentProduct_lt (h : l.asPower? = some (base, m)) :
    weight (.app .multiply [m, r]) < weight l + weight r + 3 := by
  have hl := weight_of_asPower? h
  rw [weight_pair, shareOf_multiply]
  omega

/-- A power with the product of two exponents is lighter than the tower. -/
theorem weight_tower_lt (h : l.asPower? = some (base, m))
    (hx : weight x ≤ weight (.app .multiply [m, r])) :
    weight (.app .power [base, x]) < weight l + weight r + 3 := by
  have hl := weight_of_asPower? h
  rw [weight_pair, shareOf_multiply] at hx
  rw [weight_pair, shareOf_power]
  omega

end Rules

/-! ## Steps -/

/-- The simplifier of applications gives nothing heavier than the application. -/
def ReducerLight (f : Reducer) : Prop :=
  ∀ op ps e, (f op ps).value = .ok e → weight e ≤ weight (.app op ps)

/-- The step makes of two operands something lighter than the two side by side. -/
def CombinerLight (op : Operator) (c : Combiner) : Prop :=
  ∀ l r e, (c l r).value = .ok (some e) → weight e < weight l + weight r + shareOf op.name

/-- Whatever becomes of two operands is lighter than the two side by side. -/
theorem Outcome.weight_lt {reduce : Reducer} {op : Operator} {l r e : Expr}
    (hf : ReducerLight reduce) (h : Outcome reduce op l r e) :
    weight e < weight l + weight r + shareOf op.name := by
  have hshare := one_le_shareOf op.name
  have hl := two_le_weight l
  have hr := two_le_weight r
  -- only the rules that build an application need more than what weighs least
  cases h with
  | alike | promoted | zeroFactor | zeroExponent | oneBase | zeroBase =>
    rw [weight_num]
    omega
  | oneFactorLeft | oneFactorRight | zeroTermLeft | zeroTermRight | oneExponent => omega
  | square h he hn =>
    rw [shareOf_multiply]
    exact Nat.lt_of_le_of_lt (hf _ _ _ he) (weight_square_lt h hn)
  | powers h hx he hu =>
    rw [shareOf_multiply]
    exact Nat.lt_of_le_of_lt (hf _ _ _ he) (weight_powers_lt h hu (hf _ _ _ hx))
  | double h he hn =>
    rw [shareOf_add]
    exact Nat.lt_of_le_of_lt (hf _ _ _ he) (weight_double_lt h hn)
  | like hcl hcr h hx he hne =>
    rw [shareOf_add]
    exact Nat.lt_of_le_of_lt (hf _ _ _ he) (weight_like_lt hcl hcr h hne (hf _ _ _ hx))
  | tower hp _ hx he =>
    rw [shareOf_power]
    exact Nat.lt_of_le_of_lt (hf _ _ _ he) (weight_tower_lt hp (hf _ _ _ hx))
  | chosen h => rcases h with rfl | rfl <;> omega
  | summed =>
    rw [Expr.int, weight_num]
    omega

/-- Where a parameter takes up the operand, the parameters get lighter than they were with the
operand beside them. -/
theorem weightOfList_regroup_lt {op : Operator} (as bs : List Expr) {p q r : Expr}
    (h : weight q < weight p + weight r + shareOf op.name) :
    weightOfList (shareOf op.name) (as ++ q :: bs) <
      weightOfList (shareOf op.name) (as ++ p :: bs) + weight r + shareOf op.name := by
  have hq := weightOfList_add_share (shareOf op.name) (show as ++ q :: bs ≠ [] by simp)
  have hp := weightOfList_add_share (shareOf op.name) (show as ++ p :: bs ≠ [] by simp)
  simp only [shares_append, shares_cons] at hq hp
  omega

theorem weight_eq_of_name_eq {op head : Operator} (h : head.name = op.name) (ps : List Expr) :
    weight (.app head ps) = weight (.app op ps) := by
  rw [weight_app, weight_app, h]

/-- A step makes its operands lighter if the calls that it makes do. -/
theorem combinerLight_combineStep {op : Operator} {reduce : Reducer} {combine : Combiner}
    (hf : ReducerLight reduce) (hc : CombinerLight op combine) :
    CombinerLight op (combineStep reduce combine op) := by
  intro l r e h
  rcases combineStep_eq_some h with ho | ⟨ps, as, p, bs, q, ⟨-, head, rfl, hname⟩, rfl, hq, he⟩
  · exact ho.weight_lt hf
  · have hmerged := hc _ _ _ hq
    have hresult := hf _ _ _ he
    have hlist := weightOfList_regroup_lt as bs hmerged
    have hlength : (as ++ q :: bs).length = (as ++ p :: bs).length := by simp
    rw [weight_app, hlength] at hresult
    rw [weight_eq_of_name_eq hname, weight_app]
    omega

/-! ## Folds -/

mutual

/-- Splicing nested operands in makes nothing heavier. -/
theorem shares_splice_le (name : String) : (e : Expr) →
    shares (shareOf name) (splice name e) ≤ weight e + shareOf name
  | .num n => by simp [splice]
  | .sym s role => by simp [splice]
  | .app op ps => by
    unfold splice
    split
    · next hname =>
      rw [beq_iff_eq] at hname
      have hflat := shares_flatten_le name ps
      have happ := shares_le_weight op ps
      rw [hname] at happ
      omega
    · simp

theorem shares_flatten_le (name : String) : (ps : List Expr) →
    shares (shareOf name) (flatten name ps) ≤ shares (shareOf name) ps
  | [] => by simp [flatten]
  | p :: ps => by
    have hp := shares_splice_le name p
    have hps := shares_flatten_le name ps
    simp only [flatten, shares_append, shares_cons]
    omega

end

theorem shares_operands_le (op : Operator) (ps : List Expr) :
    shares (shareOf op.name) (operands op ps) ≤ shares (shareOf op.name) ps := by
  unfold operands
  split
  · exact shares_flatten_le op.name ps
  · exact Nat.le_refl _

theorem weight_join_le (op : Operator) (l r : Expr) :
    weight (join op l r) ≤ weight l + weight r + shareOf op.name := by
  unfold join
  split
  · next head ps =>
    split
    · next hown =>
      rw [Bool.and_eq_true, beq_iff_eq] at hown
      have hconcat := weightOfList_add_share (shareOf op.name) (show ps ++ [r] ≠ [] by simp)
      simp only [shares_append, shares_cons, shares_nil] at hconcat
      rw [weight_eq_of_name_eq hown.2, weight_eq_of_name_eq hown.2, weight_app, weight_app]
      by_cases hps : ps = []
      · subst hps
        simp only [List.nil_append, List.length_singleton, shares_nil, weightOfList] at hconcat ⊢
        simp
        omega
      · have hsum := weightOfList_add_share (shareOf op.name) hps
        have hlength : ps.length ≠ 0 := by simpa using hps
        simp only [List.length_append, List.length_singleton]
        split <;> split <;> omega
    · exact Nat.le_of_eq (weight_pair op _ r)
  · exact Nat.le_of_eq (weight_pair op l r)

theorem weight_coefficientFirst (e : Expr) : weight (coefficientFirst e) = weight e := by
  unfold coefficientFirst
  split
  · next op p ps =>
    split
    · next hmove =>
      simp only [Bool.and_eq_true, beq_iff_eq] at hmove
      have hperm : (ps.filter Expr.isNumber ++ p :: ps.filter (!·.isNumber)).Perm (p :: ps) :=
        List.perm_middle.trans ((List.filter_append_perm _ ps).cons p)
      have hne : ps.filter Expr.isNumber ++ p :: ps.filter (!·.isNumber) ≠ [] := by simp
      have hl := weightOfList_add_share 2 hne
      have hr := weightOfList_add_share 2 (List.cons_ne_nil p ps)
      rw [shares_perm hperm] at hl
      rw [weight_app, weight_app, hmove.1.1, shareOf_multiply, hperm.length_eq]
      omega
    · rfl
  · rfl

theorem weight_emptyApplication_le (op : Operator) (ps : List Expr) :
    weight (emptyApplication op) ≤ weight (.app op ps) := by
  have hfour : 4 ≤ weight (.app op ps) := four_le_weight rfl
  cases op with
  | add => simp only [emptyApplication, weight_num]; omega
  | multiply => simp only [emptyApplication, weight_num]; omega
  | power => simpa [emptyApplication, weight_app, weightOfList] using hfour
  | define id => simpa [emptyApplication, weight_app, weightOfList] using hfour
  | extension x => simpa [emptyApplication, weight_app, weightOfList] using hfour

/-- The result of a fold weighs at most as much as the running result and the operands that are
left. -/
theorem weight_foldOperands_le {op : Operator} {combine : Combiner} (hc : CombinerLight op combine)
    {running e : Expr} {rest : List Expr}
    (h : (foldOperands combine op running rest).value = .ok e) :
    weight e ≤ weight running + shares (shareOf op.name) rest := by
  have hlast := foldOperands_induction
    (I := fun l rest' => weight l + shares (shareOf op.name) rest' ≤
      weight running + shares (shareOf op.name) rest)
    (fun l r rest' x hinv hx => by
      have hlt := hc l r x hx
      simp only [shares_cons] at hinv
      omega)
    (fun l r rest' hinv _ => by
      have hle := weight_join_le op l r
      simp only [shares_cons] at hinv
      omega)
    (Nat.le_refl _) h
  simpa using hlast

/-- The fold makes nothing heavier if its steps make their operands lighter. -/
theorem reducerLight_reduceStep {combine : Operator → Combiner}
    (hc : ∀ op, CombinerLight op (combine op)) :
    ReducerLight fun op ps => reduceStep (combine op) op ps := by
  intro op ps e h
  rcases reduceStep_eq_ok h with ⟨-, rfl⟩ | ⟨-, -, rfl⟩ | ⟨p, qs, e', -, heq, hfold, hfin⟩
  · exact Nat.le_refl _
  · exact weight_emptyApplication_le op ps
  · have hfold' := weight_foldOperands_le (hc op) hfold
    have hops := shares_operands_le op ps
    have happ := shares_le_weight op ps
    rw [heq, shares_cons] at hops
    rcases finish_eq_ok hfin with ⟨-, -, rfl⟩ | ⟨-, rfl⟩
    · rw [weight_coefficientFirst]
      omega
    · omega

/-! ## The recursion -/

/-- At no depth does the simplifier make anything heavier. -/
theorem light_within (depth : Nat) : ReducerLight (reduceWithin depth) ∧
    ∀ op, CombinerLight op (combineWithin depth op) :=
  within_induction
    (fun _ _ _ h => by simp at h) (fun _ _ _ _ h => by simp at h)
    (fun _ hc => reducerLight_reduceStep hc)
    (fun _ _ _ hf hc => combinerLight_combineStep hf hc) depth

/-- A simplified application weighs at most as much as the application. -/
theorem weight_reduce_le {op : Operator} {ps : List Expr} {e : Expr}
    (h : (reduce op ps).value = .ok e) : weight e ≤ weight (.app op ps) :=
  (light_within _).1 op ps e h

/-- What two operands are combined to weighs less than the two side by side. -/
theorem weight_combine_lt {op : Operator} {l r e : Expr}
    (h : (combine op l r).value = .ok (some e)) :
    weight e < weight l + weight r + shareOf op.name :=
  (light_within _).2 op l r e h

end Simplify

end Reckoner
