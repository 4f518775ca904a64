import Reckoner.Proofs.Evaluation.Again
import Reckoner.Proofs.Simplify.Power

/-!
# Evaluating exact arithmetic

A sum, a product and a reciprocal of exact numbers are evaluated to a number, and to the right one.
The number is an integer when it is whole, with one exception: a ratio literal that is whole, such
as `2/1`, is no integer, and where all that is added to it is zero and all that it is multiplied by
is one, it is handed on as it is.
-/

namespace Reckoner

open Simplify Logged Reckoner.Expr

/-! ## Numbers side by side -/

namespace Simplify

variable {op : Operator}

/-- Sums and products of exact numbers are computed, to a canonical number or to one of them. -/
theorem exists_foldOperands_exact (hop : op.IsMonoidal) {a : Number} {ns : List Number}
    (ha : a.toRat?.isSome = true) (hns : ∀ n ∈ ns, n.toRat?.isSome = true) :
    ∃ c, (foldOperands (combine op) op (.num a) (ns.map .num)).value = .ok (.num c) ∧
      (c.IsCanonical ∨ c ∈ a :: ns) := by
  -- the running number is canonical or one of those that were taken up
  induction ns generalizing a with
  | nil => exact ⟨a, rfl, .inr (by simp)⟩
  | cons b ns ih =>
    rw [List.forall_mem_cons] at hns
    obtain ⟨c, hc, hfrom⟩ := exists_combineAlone_exact Simplify.reduce hop ha hns.1
    have hcombine : (combine op (.num a) (.num b)).value = .ok (some (.num c)) := by
      rw [value_combine_of_flat fun _ => rfl, hc]
    have hexact : c.toRat?.isSome = true := by
      rcases hfrom with h | rfl | rfl
      · exact h.isSome_toRat?
      · exact ha
      · exact hns.1
    obtain ⟨d, hd, hfrom'⟩ := ih hexact hns.2
    refine ⟨d, value_bind_eq_ok.2 ⟨_, hcombine, value_bind_eq_ok.2 ⟨(), rfl, hd⟩⟩, ?_⟩
    rcases hfrom' with h | h
    · exact .inl h
    · rcases List.mem_cons.1 h with rfl | hmem
      · rcases hfrom with h | rfl | rfl
        · exact .inl h
        · exact .inr (by simp)
        · exact .inr (by simp)
      · exact .inr (by simp [hmem])

theorem exists_reduce_exact (hop : op.IsMonoidal) {ns : List Number}
    (hns : ∀ n ∈ ns, n.toRat?.isSome = true) :
    ∃ c, (reduce op (ns.map .num)).value = .ok (.num c) ∧ (c.IsCanonical ∨ c ∈ ns) := by
  have hfinish : ∀ c, (finish op (.num c)).value = .ok (.num c) := fun c => by
    rcases hop with rfl | rfl <;> rfl
  cases ns with
  | nil =>
    rw [List.map_nil, (matches_reduce op []).1, reduceStep, if_pos hop.folds,
      if_pos hop.isAssociative]
    rcases hop with rfl | rfl
    · exact ⟨.zero, rfl, .inl trivial⟩
    · exact ⟨.unit, rfl, .inl trivial⟩
  | cons a ns =>
    rw [List.forall_mem_cons] at hns
    obtain ⟨c, hc, hfrom⟩ := exists_foldOperands_exact hop hns.1 hns.2
    have hflat : ∀ p ∈ (a :: ns).map Expr.num, p.hasHead op.name = false := by
      simp [hasHead]
    refine ⟨c, ?_, hfrom⟩
    rw [List.map_cons] at hflat ⊢
    rw [value_reduce_cons hop.folds (operands_of_flat fun _ => hflat) hc, hfinish]

/-- The reciprocal of an exact number is canonical, unless there is none or it has too many bits. -/
theorem exists_reduce_reciprocal {a : Number} {v : ℚ} (ha : a.toRat? = some v) (hv : v ≠ 0)
    (hbits : Number.HasExactBits v) :
    ∃ c, (reduce .power [.num a, .num .minusOne]).value = .ok (.num c) ∧ c.toRat? = some v⁻¹ ∧
      c.IsCanonical := by
  have hpower : Number.exactPower? v (-1) = some (Number.ofRat v⁻¹) :=
    Number.exactPower?_neg_one hv hbits
  have hminus : Number.minusOne.toRat? = some ((-1 : ℤ) : ℚ) := rfl
  have hcombine : ∃ c, (combine .power (.num a) (.num .minusOne)).value = .ok (some (.num c)) ∧
      c.toRat? = some v⁻¹ ∧ c.IsCanonical := by
    cases hkind : a.sameKind .minusOne with
    | true =>
      rw [value_combine_power_whole hkind ha hminus, hpower]
      exact ⟨_, rfl, Number.toRat?_ofRat _, Number.isCanonical_ofRat _⟩
    | false =>
      have hne0 : ((-1 : ℤ) : ℚ) ≠ 0 := by norm_num
      have hne1 : ((-1 : ℤ) : ℚ) ≠ 1 := by norm_num
      rw [value_combine_power_mixed hkind ha hminus, if_neg hne0, if_neg hne1]
      by_cases hone : v = 1
      · rw [if_pos hone, hone, inv_one]
        exact ⟨.unit, rfl, rfl, trivial⟩
      · rw [if_neg hone, if_neg hv, if_pos (Rat.den_intCast _), Rat.num_intCast, hpower]
        exact ⟨_, rfl, Number.toRat?_ofRat _, Number.isCanonical_ofRat _⟩
  obtain ⟨c, hc, hvalue, hcanonical⟩ := hcombine
  rw [value_combine_power] at hc
  have hflat : Operator.power.isAssociative = true → ∀ e : Expr,
      e.hasHead Operator.power.name = false := fun h => absurd h Bool.false_ne_true
  have hreduce := value_reduce_pair rfl (fun h => hflat h _) (fun h => hflat h _) hc
  exact ⟨c, hreduce, hvalue, hcanonical⟩

end Simplify

/-! ## Expressions -/

namespace Expr

/-- A ratio literal with the given whole value is a part of the expression from which only sums and
products lead outwards. -/
inductive HandedOn (v : ℚ) : Expr → Prop where
  | literal (h : v.den = 1) : HandedOn v (.num (.fraction v))
  | parameter {op : Operator} {ps : List Expr} {p : Expr} (hop : op.IsMonoidal) (hp : p ∈ ps)
      (h : HandedOn v p) : HandedOn v (.app op ps)

/-- The expression is evaluated to a number of the given value, which is canonical unless it is
handed on. -/
def Computes (v : ℚ) (e : Expr) : Prop :=
  ∀ depth s, e.deeperThan depth = false → ∃ n : Number,
    (e.evaluateWithin depth s).value = .ok (.num n) ∧ n.toRat? = some v ∧
      (n.IsCanonical ∨ HandedOn v e)

variable {v : ℚ} {op : Operator}

theorem computes_num {n : Number} (h : n.toRat? = some v) : Computes v (.num n) := by
  intro depth s _
  refine ⟨n, by rw [evaluateWithin]; rfl, h, ?_⟩
  cases n with
  | integer m => exact .inl trivial
  | double x => cases h
  | fraction q =>
    cases h
    by_cases hden : v.den = 1
    · exact .inr (.literal hden)
    · have hpos := v.den_pos
      exact .inl (show 2 ≤ v.den by omega)
  | unit => exact .inl trivial

theorem computes_num_iff {n : Number} : Computes v (.num n) ↔ n.toRat? = some v := by
  refine ⟨fun h => ?_, computes_num⟩
  obtain ⟨m, hm, hv, -⟩ := h 0 .fresh rfl
  rw [evaluateWithin] at hm
  cases hm
  exact hv

/-- The parameters of an application are evaluated to numbers. -/
theorem exists_evaluateList {vs : List ℚ} {ps : List Expr} {depth : Nat}
    (h : List.Forall₂ Computes vs ps) (hdeep : ∀ p ∈ ps, p.deeperThan depth = false) (s : Stores) :
    ∃ ns : List Number, (evaluateList depth ps s).value = .ok (ns.map .num) ∧
      List.Forall₂ (fun n v => n.toRat? = some v) ns vs ∧
      ∀ n ∈ ns, n.IsCanonical ∨ ∃ p ∈ ps, ∃ v, n.toRat? = some v ∧ HandedOn v p := by
  induction h generalizing s with
  | nil =>
    refine ⟨[], ?_, .nil, by simp⟩
    rw [evaluateList]
    rfl
  | @cons v p vs ps hp _ ih =>
    rw [List.forall_mem_cons] at hdeep
    obtain ⟨n, hn, hv, hfrom⟩ := hp depth s hdeep.1
    obtain ⟨ns, hns, hvs, hall⟩ := ih hdeep.2 (p.evaluateWithin depth s).stores
    refine ⟨n :: ns, value_evaluateList_cons.2 ⟨_, _, hn, hns, rfl⟩, .cons hv hvs, ?_⟩
    rw [List.forall_mem_cons]
    constructor
    · exact hfrom.imp_right fun h => ⟨p, by simp, v, hv, h⟩
    · intro m hm
      refine (hall m hm).imp_right ?_
      rintro ⟨q, hq, w, hw, h⟩
      exact ⟨q, by simp [hq], w, hw, h⟩

/-- Sums and products of what computes compute. -/
theorem computes_app {vs : List ℚ} {ps : List Expr} (hop : op.IsMonoidal)
    (h : List.Forall₂ Computes vs ps) (hv : op.value? vs = some v) : Computes v (.app op ps) := by
  intro depth s hdeep
  cases depth with
  | zero =>
    rw [deeperThan] at hdeep
    cases hdeep
  | succ depth =>
    rw [deeperThan, anyDeeperThan_eq_false] at hdeep
    obtain ⟨ns, hns, hvs, hall⟩ := exists_evaluateList h hdeep s
    -- the parameters evaluate to numbers, and simplification keeps the value of their sum or
    -- product
    have hdenote : Denote (byName fun _ => 0) (ns.map .num) vs := by
      rw [Denote, List.forall₂_map_left_iff]
      simpa only [denote_num] using hvs
    have hexact : ∀ n ∈ ns, n.toRat?.isSome = true := by
      intro n hn
      obtain ⟨w, hw⟩ := hdenote.exists (.num n) (List.mem_map_of_mem hn)
      rw [denote_num] at hw
      rw [hw]
      rfl
    obtain ⟨c, hc, hfrom⟩ := exists_reduce_exact hop hexact
    have hvalue : c.toRat? = some v := by
      have hresult := denote_reduce (denote_app.2 ⟨vs, hdenote, hv⟩) hc
      rwa [denote_num] at hresult
    refine ⟨c, (value_evaluateWithin_app hop.isArithmetic).2 ⟨_, hns, hc⟩, hvalue, ?_⟩
    rcases hfrom with hcanonical | hmem
    · exact .inl hcanonical
    · refine (hall c hmem).imp_right ?_
      rintro ⟨p, hp, w, hw, hhanded⟩
      obtain rfl : v = w := Option.some.inj (hvalue.symm.trans hw)
      exact .parameter hop hp hhanded

/-- So do reciprocals, within the limit on exact powers. -/
theorem computes_reciprocal {p : Expr} (h : Computes v p) (hv : v ≠ 0)
    (hbits : Number.HasExactBits v) : Computes v⁻¹ (.app .power [p, .num .minusOne]) := by
  intro depth s hdeep
  cases depth with
  | zero =>
    rw [deeperThan] at hdeep
    cases hdeep
  | succ depth =>
    rw [deeperThan, anyDeeperThan_eq_false, List.forall_mem_cons] at hdeep
    obtain ⟨n, hn, hval, -⟩ := h depth s hdeep.1
    obtain ⟨c, hc, hvalue, hcanonical⟩ := exists_reduce_reciprocal hval hv hbits
    have hminus : ∀ s', (evaluateList depth [.num .minusOne] s').value = .ok [.num .minusOne] := by
      intro s'
      rw [evaluateList, evaluateWithin, evaluateList]
      rfl
    have hargs := value_evaluateList_cons.2 ⟨_, _, hn, hminus _, rfl⟩
    exact ⟨c, (value_evaluateWithin_app Operator.isArithmetic_power).2 ⟨_, hargs, hc⟩, hvalue,
      .inl hcanonical⟩

end Expr

end Reckoner
