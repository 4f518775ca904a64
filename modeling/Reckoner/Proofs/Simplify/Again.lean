import Reckoner.Proofs.Simplify.Steady
import Reckoner.Proofs.Simplify.Termination

/-!
# Simplifying once more

The parameters of an application in normal form go through another fold pairwise, but the fold
compares more than pairs: what it has so far, as one application, meets the next parameter. If the
operator has no rule for these either, the application comes out as it went in. Otherwise some step
of the fold combines two operands, and what comes out is lighter.

In a product, what is so far can only meet a power of itself: `3 * x * y * (3 * x * y) ^ 2` is in
normal form and is folded to `(3 * x * y) ^ 3`.
-/

namespace Reckoner

open Simplify Reckoner.Expr

namespace Simplify

variable {op : Operator} {l r e : Expr} {ps : List Expr}

/-! ## Steps -/

/-- Two operands are left alone if there is no rule for them, and nothing that takes the right one
up among the parameters of the left one. -/
theorem combine_eq_none_iff : (combine op l r).value = .ok none ↔
    Apart op l r ∧ ∀ qs, Owns op l qs → ∀ q ∈ qs, (combine op q r).value = .ok none := by
  rw [(matches_combine op l r).1]
  constructor
  · intro h
    obtain ⟨halone, hqs⟩ := combineStep_eq_none h
    exact ⟨apart_of_combineAlone halone, hqs⟩
  · rintro ⟨hapart, hqs⟩
    exact combineStep_of_none (hapart reduce) hqs

theorem combinerLight_combine (op : Operator) : CombinerLight op (combine op) :=
  fun _ _ _ h => weight_combine_lt h

/-! ## Folds of settled parameters -/

theorem flatten_of_flat {name : String} (h : ∀ p ∈ ps, p.hasHead name = false) :
    flatten name ps = ps := by
  induction ps with
  | nil => rfl
  | cons p ps ih =>
    rw [List.forall_mem_cons] at h
    rw [flatten, ih h.2]
    cases p with
    | num n => rfl
    | sym s role => rfl
    | app head qs =>
      have hhead : (head.name == name) = false := h.1
      rw [splice, hhead]
      rfl

theorem join_own (hassoc : op.isAssociative = true) (as : List Expr) (r : Expr) :
    join op (.app op as) r = .app op (as ++ [r]) := by
  simp [join, hassoc]

theorem PrefixesApart.next {as bs : List Expr} (h : PrefixesApart op (as ++ r :: bs))
    (two : 2 ≤ as.length) : Apart op (.app op as) r := by
  have hlength : as.length < (as ++ r :: bs).length := by simp
  have happly := h as.length hlength two
  rw [List.take_left' rfl] at happly
  simpa using happly

/-- The fold passes over parameters that go with nothing before them. -/
theorem foldOperands_of_apart (hassoc : op.isAssociative = true) {rest : List Expr} (as : List Expr)
    (two : 2 ≤ as.length) (hpairs : (as ++ rest).Pairwise (SideBySide op))
    (h : PrefixesApart op (as ++ rest)) :
    (foldOperands (combine op) op (.app op as) rest).value = .ok (.app op (as ++ rest)) := by
  -- the running result takes up the operands that are left, one at a time
  induction rest generalizing as with
  | nil => simp [foldOperands]
  | cons r rest ih =>
    have hnone : (combine op (.app op as) r).value = .ok none := by
      refine combine_eq_none_iff.2 ⟨h.next two, ?_⟩
      rintro qs ⟨-, head, heq, -⟩ q hq
      cases heq
      exact ((List.pairwise_append.1 hpairs).2.2 q hq r (by simp)).1
    have happend : as ++ r :: rest = as ++ [r] ++ rest := by simp
    rw [happend] at hpairs h
    refine Logged.value_bind_eq_ok.2 ⟨none, hnone, ?_⟩
    simp only
    rw [join_own hassoc, happend]
    exact ih (as ++ [r]) (by simp; omega) hpairs h

/-- A fold that gives nothing lighter has passed over parameters that go with nothing before
them. -/
theorem weight_lt_or_prefixesApart (hassoc : op.isAssociative = true) {rest : List Expr}
    (as : List Expr) (two : 2 ≤ as.length) (has : PrefixesApart op as)
    (h : (foldOperands (combine op) op (.app op as) rest).value = .ok e) :
    weight e < weight (.app op (as ++ rest)) ∨ PrefixesApart op (as ++ rest) := by
  induction rest generalizing as with
  | nil =>
    rw [List.append_nil]
    exact .inr has
  | cons r rest ih =>
    obtain ⟨o, ho, h'⟩ := Logged.value_bind_eq_ok.1 h
    cases o with
    | some x =>
      -- the rest of the fold does not give back what this step takes away
      obtain ⟨-, -, hfold⟩ := Logged.value_bind_eq_ok.1 h'
      have hlt := weight_combine_lt ho
      have hle := weight_foldOperands_le (combinerLight_combine op) hfold
      have hlength : 2 ≤ (as ++ r :: rest).length := by
        rw [List.length_append]
        omega
      have hlist := weight_add_share op two
      have hall := weight_add_share op hlength
      rw [shares_append, shares_cons] at hall
      left
      omega
    | none =>
      simp only at h'
      rw [join_own hassoc] at h'
      have hnext := has.concat (combine_eq_none_iff.1 ho).1
      simpa using ih (as ++ [r]) (by simp; omega) hnext h'

/-! ## Applications in normal form -/

theorem finish_normalNode (hop : op.IsMonoidal) (h : NormalNode op ps) :
    (finish op (.app op ps)).value = .ok (.app op ps) := by
  rcases hop with rfl | rfl
  · rfl
  · obtain ⟨hsettled, htail⟩ := h
    cases ps with
    | nil => exact absurd hsettled.two (by simp)
    | cons p qs =>
      have hany : qs.any isNumber = false := by
        rw [List.any_eq_false]
        intro q hq hn
        rw [htail q hq] at hn
        cases hn
      simp [finish, isEmptyProduct, coefficientFirst, hany]

/-- Another fold of the parameters of a sum or product in normal form. -/
theorem reduce_normalNode (hop : op.IsMonoidal) (h : NormalNode op ps) :
    ∃ p q rest, ps = p :: q :: rest ∧ (reduce op ps).value =
      (foldOperands (combine op) op (.app op [p, q]) rest >>= finish op).value := by
  have hsettled := h.settled hop
  match ps, hsettled.two with
  | p :: q :: rest, _ =>
    have hpq : (combine op p q).value = .ok none :=
      (List.rel_of_pairwise_cons hsettled.apart List.mem_cons_self).1
    refine ⟨p, q, rest, rfl, ?_⟩
    have hoperands : operands op (p :: q :: rest) = p :: q :: rest := by
      rw [operands, if_pos hop.isAssociative, flatten_of_flat hsettled.flat]
    have hjoin : join op p q = .app op [p, q] := by
      have hhead := hsettled.flat p (by simp)
      cases p with
      | num n => rfl
      | sym name role => rfl
      | app head as =>
        have hname : (head.name == op.name) = false := hhead
        simp [join, hname]
    have hfold : (foldOperands (combine op) op p (q :: rest)).value =
        (foldOperands (combine op) op (.app op [p, q]) rest).value := by
      rw [foldOperands, Logged.value_bind, hpq, ← hjoin]
      rfl
    rw [(matches_reduce op _).1, reduceStep_eq, if_pos hop.folds, hoperands]
    simp only
    rw [Logged.value_bind, Logged.value_bind, hfold]

/-- An application in normal form, simplified once more, stays as it is if no parameter goes with
the ones before it. -/
theorem reduce_of_prefixesApart (harith : op.IsArithmetic) (h : NormalNode op ps)
    (hps : op.IsMonoidal → PrefixesApart op ps) : (reduce op ps).value = .ok (.app op ps) := by
  by_cases hop : op.IsMonoidal
  · have hsettled := h.settled hop
    obtain ⟨p, q, rest, rfl, hreduce⟩ := reduce_normalNode hop h
    have hfold := foldOperands_of_apart hop.isAssociative [p, q] (Nat.le_refl 2)
      hsettled.apart (hps hop)
    rw [hreduce]
    exact Logged.value_bind_eq_ok.2 ⟨_, hfold, finish_normalNode hop h⟩
  · obtain rfl := harith.eq_power hop
    rw [(matches_reduce .power ps).1]
    rcases h with rfl | ⟨b, n, rfl, hnone⟩
    · rfl
    · refine Logged.value_bind_eq_ok.2 ⟨.app .power [b, n], ?_, rfl⟩
      refine Logged.value_bind_eq_ok.2 ⟨none, hnone, ?_⟩
      cases b <;> rfl

/-- An application in normal form, simplified once more, gets lighter if some parameter goes with
the ones before it. -/
theorem weight_reduce_lt_or (h : NormalNode op ps) (he : (reduce op ps).value = .ok e) :
    weight e < weight (.app op ps) ∨ (op.IsMonoidal → PrefixesApart op ps) := by
  by_cases hop : op.IsMonoidal
  · have hassoc : op.isAssociative = true := by rcases hop with rfl | rfl <;> rfl
    obtain ⟨p, q, rest, rfl, hreduce⟩ := reduce_normalNode hop h
    rw [hreduce] at he
    obtain ⟨e', hfold, hfin⟩ := Logged.value_bind_eq_ok.1 he
    have hweight : weight e = weight e' := by
      rcases finish_eq_ok hfin with ⟨-, -, rfl⟩ | ⟨-, rfl⟩
      · exact weight_coefficientFirst e'
      · rfl
    have hpair : PrefixesApart op [p, q] := prefixesApart_of_length_le (Nat.le_refl 2)
    rw [hweight]
    exact (weight_lt_or_prefixesApart hop.isAssociative [p, q] (Nat.le_refl 2) hpair
      hfold).imp_right fun hall _ => hall
  · exact .inr fun hmon => absurd hmon hop

/-! ## Products -/

/-- No factor after the first two is a power of the product of the factors before it. -/
def BasesApart (ps : List Expr) : Prop :=
  ∀ k (h : k < ps.length), 2 ≤ k →
    (Expr.app .multiply (ps.take k)).same ps[k].powerParts.1 = false

instance (ps : List Expr) : Decidable (BasesApart ps) :=
  inferInstanceAs (Decidable (∀ k (h : k < ps.length), 2 ≤ k →
    (Expr.app .multiply (ps.take k)).same ps[k].powerParts.1 = false))

theorem same_multiply_of_flat (h : e.hasHead Operator.multiply.name = false) (qs : List Expr) :
    (Expr.app .multiply qs).same e = false := by
  cases e with
  | num n => rfl
  | sym name role => rfl
  | app head ps =>
    have hname : (head.name == Operator.multiply.name) = false := h
    rw [same, Bool.beq_comm, hname]
    rfl

theorem isUnit_exponent {b m : Expr} (hb : b.isNumber = false)
    (h : (combine .power b m).value = .ok none) : m.isUnit = false := by
  by_contra hm
  obtain rfl : m = .num .unit := by
    cases m with
    | num n => cases n <;> simp_all [isUnit, Number.isUnit]
    | sym name role => exact absurd rfl hm
    | app head ps => exact absurd rfl hm
  have hapart := apart_of_combine h fun _ _ => Logged.fail .unfinished
  cases b with
  | num n => cases hb
  | sym name role => cases hapart
  | app head ps => cases hapart

/-- The factor of a normal product that is a power of a product has an exponent of its own. -/
theorem isUnit_powerParts (hflat : e.hasHead Operator.multiply.name = false) (he : e.Normal)
    {qs : List Expr} (h : (Expr.app .multiply qs).same e.powerParts.1 = true) :
    e.powerParts.2.isUnit = false := by
  have hbase : e.powerParts.1.isNumber = false := (isNumber_eq_of_same h).symm
  unfold powerParts at h hbase ⊢
  cases hp : e.asPower? with
  | none =>
    rw [hp, Option.getD_none, same_multiply_of_flat hflat] at h
    cases h
  | some parts =>
    obtain ⟨b, m⟩ := parts
    rw [hp] at hbase
    obtain ⟨head, rfl, hname⟩ := asPower?_eq_some hp
    have hnode := (normal_app.1 he).1
    obtain rfl : head = .power := hnode.isProper.1 .power Operator.isArithmetic_power hname
    rcases hnode with hnil | ⟨b', m', heq, hnone⟩
    · cases hnil
    · cases heq
      exact isUnit_exponent hbase hnone

/-- What is so far of a normal product goes with the next factor only if that is a power of it. -/
theorem prefixesApart_multiply (h : NormalNode .multiply ps) (hps : ∀ p ∈ ps, p.Normal) :
    PrefixesApart .multiply ps ↔ BasesApart ps := by
  obtain ⟨hsettled, -⟩ := h
  constructor
  · intro hall k hk htwo
    have hfactors := apart_multiply.1 (hall k hk htwo)
    by_contra hsame
    rw [Bool.not_eq_false] at hsame
    have hmem := List.getElem_mem hk
    have hunit := isUnit_powerParts (hsettled.flat _ hmem) (hps _ hmem) hsame
    have hpower := hfactors.power
    rw [powerParts_multiply] at hpower
    rw [(hpower hsame).2] at hunit
    cases hunit
  · intro hbases k hk htwo
    have hmem := List.getElem_mem hk
    obtain ⟨hzero, hone⟩ := hsettled.neutral _ hmem
    refine apart_multiply.2 ⟨⟨rfl, hzero⟩, ⟨rfl, hone rfl⟩, .inl rfl, ?_, fun hsame => ?_⟩
    · exact same_multiply_of_flat (hsettled.flat _ hmem) _
    · rw [powerParts_multiply, hbases k hk htwo] at hsame
      cases hsame

end Simplify

end Reckoner
