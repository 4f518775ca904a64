import Reckoner.Proofs.Simplify.Apart
import Mathlib.Data.List.Perm.Subperm

/-!
# The normal form

In a simplified expression no rule applies any more. A sum or product has at least two operands,
none of which is a sum or product itself, and leaves any two of them alone; a product has its number
first; and a power leaves its base and exponent alone.

A fold compares an operand with the running result only. That the operands inside that result are
compared too is the step: it leaves a sum or product and an operand alone only if it leaves each
parameter and the operand alone. The running result of a product need not have its number first,
so the invariant of the fold, `Running`, asks for that only once it is done.
-/

namespace Reckoner

open Simplify Reckoner.Expr

/-! ## Shapes -/

/-- The step of the operator leaves the two operands alone, in either order. -/
def Simplify.SideBySide (op : Operator) (l r : Expr) : Prop :=
  (combine op l r).value = .ok none ∧ (combine op r l).value = .ok none

/-- The parameters of a sum or product that its operator has nothing to do with any more. -/
structure Simplify.Settled (op : Operator) (ps : List Expr) : Prop where
  two : 2 ≤ ps.length
  flat : ∀ p ∈ ps, p.hasHead op.name = false
  apart : ps.Pairwise (SideBySide op)
  number : (ps.filter isNumber).length ≤ 1
  neutral : ∀ p ∈ ps, p.isZero = false ∧ (op = .multiply → p.isOne = false)

/-- The shape of an application in normal form. -/
def NormalNode : Operator → List Expr → Prop
  | .add, ps => Settled .add ps
  | .multiply, ps => Settled .multiply ps ∧ ∀ p ∈ ps.tail, p.isNumber = false
  | .power, ps => ps = [] ∨ ∃ b e, ps = [b, e] ∧ (combine .power b e).value = .ok none
  | .define _, _ => False
  | .extension x, _ => (Operator.extension x).IsProper

namespace Expr

/-- The expression is in normal form. -/
def Normal (e : Expr) : Prop := e.EveryNode NormalNode

theorem normal_app {op : Operator} {ps : List Expr} :
    (Expr.app op ps).Normal ↔ NormalNode op ps ∧ ∀ p ∈ ps, p.Normal := everyNode_app

@[simp] theorem normal_num {n : Number} : (Expr.num n).Normal := everyNode_num

@[simp] theorem normal_sym {name : String} {role : Role} : (Expr.sym name role).Normal :=
  everyNode_sym

end Expr

theorem NormalNode.isProper {op : Operator} {ps : List Expr} (h : NormalNode op ps) :
    op.IsProper := by
  cases op with
  | add => exact Operator.isArithmetic_add.isProper
  | multiply => exact Operator.isArithmetic_multiply.isProper
  | power => exact Operator.isArithmetic_power.isProper
  | define id => exact h.elim
  | extension x => exact h

theorem NormalNode.settled {op : Operator} {ps : List Expr} (hop : op.IsMonoidal)
    (h : NormalNode op ps) : Settled op ps := by
  rcases hop with rfl | rfl
  · exact h
  · exact h.1

namespace Simplify

/-! ## Settled operands -/

variable {op : Operator} {l r : Expr}

theorem SideBySide.symm (h : SideBySide op l r) : SideBySide op r l := ⟨h.2, h.1⟩

/-- Operands that a sum or product leaves alone it leaves alone in the other order. -/
theorem Apart.symm (hop : op.IsMonoidal) (h : Apart op l r) : Apart op r l := by
  rcases hop with rfl | rfl
  · exact apart_add.2 (apart_add.1 h).symm
  · exact apart_multiply.2 (apart_multiply.1 h).symm

/-- Two operands of a sum or product without a rule are left alone, unless they regroup. -/
theorem sideBySide_of_apart (hop : op.IsMonoidal) (h : Apart op l r)
    (hl : l.hasHead op.name = false) (hr : r.hasHead op.name = false) : SideBySide op l r :=
  ⟨combine_eq_none h (.inr hl), combine_eq_none (h.symm hop) (.inr hr)⟩

/-- At most one of two operands that stay side by side is a number. -/
theorem SideBySide.number (hop : op.IsMonoidal) (h : SideBySide op l r) :
    l.isNumber = false ∨ r.isNumber = false := by
  rcases hop with rfl | rfl
  · exact (apart_add.1 (apart_of_combine h.1)).number
  · exact (apart_multiply.1 (apart_of_combine h.1)).number

/-- A zero does not stay in a sum or product, nor a one in a product. -/
theorem SideBySide.neutral (hop : op.IsMonoidal) (h : SideBySide op l r) :
    l.isZero = false ∧ (op = .multiply → l.isOne = false) := by
  rcases hop with rfl | rfl
  · exact ⟨(apart_add.1 (apart_of_combine h.1)).zero.1, fun h => by cases h⟩
  · have hf := apart_multiply.1 (apart_of_combine h.1)
    exact ⟨hf.zero.1, fun _ => hf.one.1⟩

/-- Settled are two or more operands, none of them nested, that pairwise stay side by side. -/
theorem settled_of_pairwise (hop : op.IsMonoidal) {ps : List Expr} (two : 2 ≤ ps.length)
    (flat : ∀ p ∈ ps, p.hasHead op.name = false) (apart : ps.Pairwise (SideBySide op)) :
    Settled op ps := by
  refine ⟨two, flat, apart, ?_, ?_⟩
  · have hfilter : (ps.filter isNumber).Pairwise (SideBySide op) := apart.filter _
    have hall : ∀ p ∈ ps.filter isNumber, p.isNumber = true := fun p hp => (List.mem_filter.1 hp).2
    cases hps : ps.filter isNumber with
    | nil => simp
    | cons p qs =>
      cases qs with
      | nil => simp
      | cons q qs =>
        rw [hps] at hfilter hall
        have hpq := (List.rel_of_pairwise_cons hfilter (List.mem_cons_self)).number hop
        simp [hall p (by simp), hall q (by simp)] at hpq
  · intro p hp
    obtain ⟨q, hq⟩ : ∃ q, SideBySide op p q := by
      match ps, two with
      | a :: b :: rest, _ =>
        rcases List.mem_cons.1 hp with rfl | hp
        · exact ⟨b, List.rel_of_pairwise_cons apart (by simp)⟩
        · exact ⟨a, (List.rel_of_pairwise_cons apart hp).symm⟩
    exact hq.neutral hop

/-- Some operands of a settled sum or product, in another order perhaps, are settled as well. -/
theorem Settled.subperm (hop : op.IsMonoidal) {ps qs : List Expr} (h : Settled op ps)
    (hqs : qs.Subperm ps) (two : 2 ≤ qs.length) : Settled op qs := by
  refine settled_of_pairwise hop two (fun p hp => h.flat p (hqs.subset hp)) ?_
  obtain ⟨qs', hperm, hsub⟩ := hqs
  exact (hperm.pairwise_iff fun h => SideBySide.symm h).1 (h.apart.sublist hsub)

/-- One more operand may join if each of the others leaves it alone. -/
theorem Settled.concat (hop : op.IsMonoidal) {ps : List Expr} (h : Settled op ps)
    (hr : r.hasHead op.name = false) (hapart : ∀ p ∈ ps, Apart op p r) :
    Settled op (ps ++ [r]) := by
  refine settled_of_pairwise hop ?_ ?_ ?_
  · have htwo := h.two
    simp only [List.length_append, List.length_singleton]
    omega
  · intro p hp
    rcases List.mem_append.1 hp with hp | hp
    · exact h.flat p hp
    · rw [List.mem_singleton] at hp
      exact hp ▸ hr
  · refine List.pairwise_append.2 ⟨h.apart, List.pairwise_singleton _ _, fun p hp q hq => ?_⟩
    rw [List.mem_singleton] at hq
    subst hq
    exact sideBySide_of_apart hop (hapart p hp) (h.flat p hp) hr

theorem settled_pair (hop : op.IsMonoidal) (hl : l.hasHead op.name = false)
    (hr : r.hasHead op.name = false) (h : Apart op l r) : Settled op [l, r] :=
  settled_of_pairwise hop (by simp) (by simp [hl, hr])
    (by simpa using sideBySide_of_apart hop h hl hr)

/-! ## The running result -/

/-- What a fold may have come to: a normal expression, or a product whose number is not first. -/
def Running (op : Operator) (e : Expr) : Prop :=
  e.Normal ∨ (op = .multiply ∧ ∃ ps, e = .app .multiply ps ∧ Settled .multiply ps ∧
    ∀ p ∈ ps, p.Normal)

/-- What a fold takes up next. -/
def Operand (op : Operator) (e : Expr) : Prop :=
  e.Normal ∧ (op.isAssociative = true → e.hasHead op.name = false)

theorem Running.params {head : Operator} {ps : List Expr} (h : Running op (.app head ps)) :
    ∀ p ∈ ps, p.Normal := by
  rcases h with h | ⟨-, qs, heq, -, hqs⟩
  · exact (normal_app.1 h).2
  · cases heq
    exact hqs

/-- A running result with the head of the fold has settled parameters. -/
theorem Running.settled (hop : op.IsMonoidal) {head : Operator} {ps : List Expr}
    (h : Running op (.app head ps)) (hname : head.name = op.name) :
    head = op ∧ Settled op ps := by
  rcases h with h | ⟨rfl, qs, heq, hqs, -⟩
  · have hnode := (normal_app.1 h).1
    have hhead : head = op := hnode.isProper.1 op hop.isArithmetic hname
    subst hhead
    exact ⟨rfl, hnode.settled hop⟩
  · cases heq
    exact ⟨rfl, hqs⟩

theorem isNumber_of_sameList {ps qs : List Expr} (h : sameList ps qs = true)
    (hqs : ∀ q ∈ qs, q.isNumber = false) : ∀ p ∈ ps, p.isNumber = false := by
  induction ps generalizing qs with
  | nil => simp
  | cons p ps ih =>
    cases qs with
    | nil => simp [sameList] at h
    | cons q qs =>
      rw [sameList, Bool.and_eq_true] at h
      refine List.forall_mem_cons.2 ⟨?_, ih h.2 fun x hx => hqs x (by simp [hx])⟩
      rw [isNumber_eq_of_same h.1]
      exact hqs q (by simp)

/-- A running product that is the same as a normal expression is normal. -/
theorem Running.normal_of_same {b : Expr} (h : Running op l) (hs : l.same b = true)
    (hb : b.Normal) : l.Normal := by
  rcases h with h | ⟨-, ps, rfl, hps, hnormal⟩
  · exact h
  cases b with
  | num n => simp [same] at hs
  | sym name role => simp [same] at hs
  | app head qs =>
    rw [same, Bool.and_eq_true, beq_iff_eq] at hs
    obtain ⟨hnode, -⟩ := normal_app.1 hb
    have hhead : head = .multiply :=
      hnode.isProper.1 .multiply Operator.isArithmetic_multiply hs.1.symm
    subst hhead
    refine normal_app.2 ⟨⟨hps, ?_⟩, hnormal⟩
    cases ps with
    | nil => simp
    | cons p ps =>
      cases qs with
      | nil => simp [sameList] at hs
      | cons q qs =>
        have htail : sameList ps qs = true := by
          rw [sameList, Bool.and_eq_true] at hs
          exact hs.2.2
        exact isNumber_of_sameList htail hnode.2

/-! ## Steps -/

/-- The simplifier of applications gives normal expressions for normal parameters. -/
def ReducerNormal (f : Reducer) : Prop :=
  ∀ op ps e, op.IsProper → (∀ p ∈ ps, p.Normal) → (f op ps).value = .ok e → e.Normal

/-- The step on a running result and an operand gives the running result or a normal expression, and
leaves them alone only where the operator has no rule for them and nothing to regroup. -/
structure CombinerNormal (op : Operator) (c : Combiner) : Prop where
  /-- What it makes of them. -/
  some : ∀ {l r e}, Running op l → Operand op r → (c l r).value = .ok (some e) → e = l ∨ e.Normal
  /-- Where it leaves them alone. -/
  none : ∀ {l r}, (c l r).value = .ok none →
    Apart op l r ∧ ∀ ps, Owns op l ps → ∀ p ∈ ps, Apart op p r

theorem normal_powerParts {e : Expr} (h : e.Normal) :
    e.powerParts.1.Normal ∧ e.powerParts.2.Normal :=
  inherited_everyNode.powerParts normal_num h

theorem powerParts_multiply (ps : List Expr) :
    (Expr.app .multiply ps).powerParts = (.app .multiply ps, .num .unit) := by
  unfold powerParts asPower?
  split
  · next heq =>
    cases heq
    rfl
  · rfl

theorem Running.normal_powerParts (h : Running op l) {b : Expr}
    (hs : l.powerParts.1.same b = true) (hb : b.Normal) :
    l.powerParts.1.Normal ∧ l.powerParts.2.Normal := by
  have hl : l.Normal := by
    by_cases hn : l.Normal
    · exact hn
    rcases h with h | ⟨hop, ps, rfl, hps⟩
    · exact absurd h hn
    rw [powerParts_multiply] at hs
    exact Running.normal_of_same (.inr ⟨hop, ps, rfl, hps⟩) hs hb
  exact Simplify.normal_powerParts hl

theorem normal_coefficient? {e term : Expr} {c : Number} (h : e.Normal)
    (hc : e.coefficient? = some (c, term)) : term.Normal := by
  rcases coefficient?_eq_some hc with ⟨-, -, rfl⟩ | ⟨head, ps, rfl, hname, hterm⟩
  · exact h
  · obtain ⟨hnode, hps⟩ := normal_app.1 h
    obtain rfl : head = .multiply :=
      hnode.isProper.1 .multiply Operator.isArithmetic_multiply hname
    rcases hterm with rfl | ⟨htwo, rfl⟩
    · exact hps term (by simp)
    · have hsub := (List.sublist_cons_self (.num c) ps).subperm
      have hsettled := hnode.1.subperm (.inr rfl) hsub htwo
      have htail : ∀ p ∈ ps.tail, p.isNumber = false :=
        fun p hp => hnode.2 p (List.mem_of_mem_tail hp)
      exact normal_app.2 ⟨⟨hsettled, htail⟩, fun p hp => hps p (by simp [hp])⟩

/-- What a running result and an operand become is the running result or normal. -/
theorem Outcome.normal {reduce : Reducer} {e : Expr} (hf : ReducerNormal reduce)
    (h : Outcome reduce op l r e) (hl : Running op l) (hr : Operand op r) : e = l ∨ e.Normal := by
  have hadd := Operator.isArithmetic_add.isProper
  have hmul := Operator.isArithmetic_multiply.isProper
  have hpow := Operator.isArithmetic_power.isProper
  cases h with
  | alike => exact .inr normal_num
  | promoted => exact .inr normal_num
  | zeroFactor => exact .inr normal_num
  | oneFactorLeft => exact .inr hr.1
  | oneFactorRight => exact .inl rfl
  | square hs he =>
    have hln := hl.normal_of_same hs hr.1
    exact .inr (hf _ _ _ hpow (by simp [hln]) he)
  | powers hs hx he =>
    have hrp := Simplify.normal_powerParts hr.1
    have hlp := hl.normal_powerParts hs hrp.1
    have hxn := hf _ _ _ hadd (by simp [hlp.2, hrp.2]) hx
    exact .inr (hf _ _ _ hpow (by simp [hlp.1, hxn]) he)
  | zeroTermLeft => exact .inr hr.1
  | zeroTermRight => exact .inl rfl
  | double hs he =>
    have hln := hl.normal_of_same hs hr.1
    exact .inr (hf _ _ _ hmul (by simp [hln]) he)
  -- in a sum the running result is normal itself, since only a product may have its number
  -- elsewhere
  | like hcl hcr hs hx he =>
    have hln : l.Normal := hl.resolve_right fun h => by cases h.1
    have ht := normal_coefficient? hln hcl
    have hxn := hf _ _ _ hadd (by simp) hx
    exact .inr (hf _ _ _ hmul (by simp [ht, hxn]) he)
  | zeroExponent => exact .inr normal_num
  | oneExponent => exact .inl rfl
  | oneBase => exact .inr normal_num
  | zeroBase => exact .inr normal_num
  | tower hp _ hx he =>
    have hln : l.Normal := hl.resolve_right fun h => by cases h.1
    have hlp := Simplify.normal_powerParts hln
    simp only [powerParts, hp, Option.getD_some] at hlp
    have hxn := hf _ _ _ hmul (by simp [hlp.2, hr.1]) hx
    exact .inr (hf _ _ _ hpow (by simp [hlp.1, hxn]) he)
  | chosen h =>
    rcases h with rfl | rfl
    · exact .inl rfl
    · exact .inr hr.1
  | summed => exact .inr normal_num

/-- A step leads from a running result and an operand to a running result. -/
theorem combinerNormal_combineStep {reduce : Reducer} {combine : Combiner}
    (hop : op.IsProper) (hf : ReducerNormal reduce) (hc : CombinerNormal op combine) :
    CombinerNormal op (combineStep reduce combine op) := by
  constructor
  · intro l r e hl hr h
    rcases combineStep_eq_some h with ho | ⟨ps, as, p, bs, q, ⟨-, head, rfl, -⟩, rfl, hq, he⟩
    · exact ho.normal hf hl hr
    · have hps := hl.params
      have hp := hps p (by simp)
      have hqn : q.Normal := by
        rcases hc.some (.inl hp) hr hq with rfl | hqn
        · exact hp
        · exact hqn
      refine .inr (hf _ _ _ hop (fun x hx => ?_) he)
      rcases List.mem_append.1 hx with hx | hx
      · exact hps x (by simp [hx])
      · rcases List.mem_cons.1 hx with rfl | hx
        · exact hqn
        · exact hps x (by simp [hx])
  · intro l r h
    obtain ⟨halone, hps⟩ := combineStep_eq_none h
    exact ⟨apart_of_combineAlone halone, fun ps hown p hp => (hc.none (hps ps hown p hp)).1⟩

/-! ## Folds -/

/-- The operands of an application with normal parameters are normal and not nested. -/
theorem operand_operands (op : Operator) {ps : List Expr} (h : ∀ p ∈ ps, p.Normal) :
    ∀ x ∈ operands op ps, Operand op x :=
  forall_mem_operands inherited_everyNode h

/-- The first two operands that stay side by side are a running result. -/
theorem running_pair (hop : op.IsProper) (hl : Running op l) (hr : Operand op r)
    (hapart : Apart op l r) (hhead : op.isAssociative = true → l.hasHead op.name = false) :
    Running op (.app op [l, r]) := by
  have hln : l.Normal := by
    refine hl.resolve_right ?_
    rintro ⟨rfl, ps, rfl, -⟩
    cases hhead rfl
  have hps : ∀ p ∈ [l, r], p.Normal := by simp [hln, hr.1]
  cases op with
  | add =>
    exact .inl (normal_app.2 ⟨settled_pair (.inl rfl) (hhead rfl) (hr.2 rfl) hapart, hps⟩)
  | multiply =>
    exact .inr ⟨rfl, _, rfl, settled_pair (.inr rfl) (hhead rfl) (hr.2 rfl) hapart, hps⟩
  | power =>
    exact .inl (normal_app.2 ⟨.inr ⟨l, r, rfl, combine_eq_none hapart (.inl rfl)⟩, hps⟩)
  | define id => exact absurd rfl (hop.2 id)
  | extension x => exact .inl (normal_app.2 ⟨hop, hps⟩)

/-- A running result with one more operand at its end is one again. -/
theorem running_concat (hop : op.IsProper) {head : Operator} {ps : List Expr}
    (hl : Running op (.app head ps)) (hassoc : op.isAssociative = true)
    (hname : head.name = op.name) (hr : Operand op r) (hapart : ∀ p ∈ ps, Apart op p r) :
    Running op (.app head (ps ++ [r])) := by
  have hps : ∀ p ∈ ps ++ [r], p.Normal := by
    intro p hp
    rcases List.mem_append.1 hp with hp | hp
    · exact hl.params p hp
    · rw [List.mem_singleton] at hp
      exact hp ▸ hr.1
  by_cases hmon : op.IsMonoidal
  · obtain ⟨rfl, hsettled⟩ := hl.settled hmon hname
    have hconcat := hsettled.concat hmon (hr.2 hassoc) hapart
    -- a sum is normal at once, while a product waits for its number to be moved
    rcases hmon with rfl | rfl
    · exact .inl (normal_app.2 ⟨hconcat, hps⟩)
    · exact .inr ⟨rfl, _, rfl, hconcat, hps⟩
  · -- an extension that goes by the name of the head is no arithmetic operator
    have hnode := (normal_app.1 (hl.resolve_right fun h => hmon (.inr h.1))).1
    have harith : ¬ head.IsArithmetic := by
      intro hhead
      have heq := hop.1 head hhead hname.symm
      subst heq
      rcases hhead with rfl | rfl | rfl
      · exact hmon (.inl rfl)
      · exact hmon (.inr rfl)
      · cases hassoc
    refine .inl (normal_app.2 ⟨?_, hps⟩)
    cases head with
    | add => exact absurd Operator.isArithmetic_add harith
    | multiply => exact absurd Operator.isArithmetic_multiply harith
    | power => exact absurd Operator.isArithmetic_power harith
    | define id => exact hnode.elim
    | extension x => exact hnode

/-- A running result and an operand that no rule applies to stay side by side as a running
result. -/
theorem Running.join (hop : op.IsProper) (hl : Running op l) (hr : Operand op r)
    (hapart : Apart op l r) (hown : ∀ ps, Owns op l ps → ∀ p ∈ ps, Apart op p r) :
    Running op (join op l r) := by
  unfold Simplify.join
  split
  · next head ps =>
    split
    · next h =>
      rw [Bool.and_eq_true, beq_iff_eq] at h
      exact running_concat hop hl h.1 h.2 hr (hown ps ⟨h.1, head, rfl, h.2⟩)
    · next h =>
      refine running_pair hop hl hr hapart fun hassoc => ?_
      simpa [hasHead, hassoc] using h
  · next hne =>
    refine running_pair hop hl hr hapart fun _ => ?_
    cases l with
    | num n => rfl
    | sym name role => rfl
    | app head ps => exact absurd rfl (hne head ps)

/-- With its coefficient in front, the running result of a product is normal. -/
theorem Running.coefficientFirst {e : Expr} (h : Running .multiply e) :
    (coefficientFirst e).Normal := by
  unfold Simplify.coefficientFirst
  split
  · next head p ps =>
    split
    · next hmove =>
      simp only [Bool.and_eq_true, beq_iff_eq, Bool.not_eq_true'] at hmove
      obtain ⟨⟨hname, hp⟩, hany⟩ := hmove
      obtain ⟨rfl, hsettled⟩ := h.settled (.inr rfl) hname
      have hperm : (ps.filter isNumber ++ p :: ps.filter (!·.isNumber)).Perm (p :: ps) :=
        List.perm_middle.trans ((List.filter_append_perm _ ps).cons p)
      have hparams : ∀ x ∈ ps.filter isNumber ++ p :: ps.filter (!·.isNumber), x.Normal :=
        fun x hx => h.params x (hperm.subset hx)
      refine normal_app.2 ⟨⟨hsettled.subperm (.inr rfl) hperm.subperm ?_, ?_⟩, hparams⟩
      · rw [hperm.length_eq]
        exact hsettled.two
      · -- a settled product has one number at most, and there is one
        obtain ⟨n, hn⟩ : ∃ n, ps.filter isNumber = [n] := by
          have hone := hsettled.number
          rw [List.filter_cons_of_neg (by simp [hp])] at hone
          obtain ⟨x, hx, hxn⟩ := List.any_eq_true.1 hany
          have hpos := List.length_pos_of_mem (List.mem_filter.2 ⟨hx, hxn⟩)
          exact List.length_eq_one_iff.1 (by omega)
        rw [hn]
        simp [hp]
    · next hstay =>
      by_cases hname : head.name = Operator.multiply.name
      · obtain ⟨rfl, hsettled⟩ := h.settled (.inr rfl) hname
        refine normal_app.2 ⟨⟨hsettled, fun q hq => ?_⟩, h.params⟩
        by_cases hp : p.isNumber = true
        · -- the number is first already, so there is no other one
          have hpq := (List.rel_of_pairwise_cons hsettled.apart hq).number (.inr rfl)
          simpa [hp] using hpq
        · have hnone : ps.any isNumber = false := by simpa [hp] using hstay
          simpa using List.any_eq_false.1 hnone q hq
      · rcases h with h | ⟨-, qs, heq, -⟩
        · exact h
        · cases heq
          exact absurd rfl hname
  · next hne =>
    rcases h with h | ⟨-, ps, rfl, hps, -⟩
    · exact h
    · cases ps with
      | nil => exact absurd hps.two (by simp)
      | cons p ps => exact absurd rfl (hne _ _ _)

/-- The fold ends in a normal form if its steps keep the invariant. -/
theorem reducerNormal_reduceStep {combine : Operator → Combiner}
    (hc : ∀ op : Operator, op.IsProper → CombinerNormal op (combine op)) :
    ReducerNormal fun op ps => reduceStep (combine op) op ps := by
  intro op ps e hop hps h
  have hcop := hc op hop
  rcases reduceStep_eq_ok h with ⟨hfolds, rfl⟩ | ⟨-, -, rfl⟩ | ⟨p, qs, e', -, heq, hfold, hfin⟩
  · cases op with
    | define id => exact absurd rfl (hop.2 id)
    | extension x => exact normal_app.2 ⟨hop, hps⟩
    | _ => cases hfolds
  · cases op with
    | define id => exact absurd rfl (hop.2 id)
    | extension x => exact normal_app.2 ⟨hop, by simp⟩
    | power => exact normal_app.2 ⟨.inl rfl, by simp⟩
    | _ => exact normal_num
  · have hops := operand_operands op hps
    rw [heq] at hops
    -- the invariant: a running result so far, and operands that are normal and not nested
    have he' := foldOperands_induction
      (I := fun l rest => Running op l ∧ ∀ x ∈ rest, Operand op x)
      (fun l r rest x hinv hx => by
        refine ⟨?_, fun y hy => hinv.2 y (by simp [hy])⟩
        rcases hcop.some hinv.1 (hinv.2 r (by simp)) hx with rfl | hn
        · exact hinv.1
        · exact .inl hn)
      (fun l r rest hinv hx => by
        obtain ⟨hapart, hown⟩ := hcop.none hx
        exact ⟨hinv.1.join hop (hinv.2 r (by simp)) hapart hown,
          fun y hy => hinv.2 y (by simp [hy])⟩)
      ⟨.inl (hops p (by simp)).1, fun x hx => hops x (by simp [hx])⟩ hfold
    rcases finish_eq_ok hfin with ⟨rfl, -, rfl⟩ | ⟨hne, rfl⟩
    · exact he'.1.coefficientFirst
    · exact he'.1.resolve_right fun h => hne h.1

/-- A simplified application to normal parameters is normal. -/
theorem normal_reduce {ps : List Expr} {e : Expr} (hop : op.IsProper) (hps : ∀ p ∈ ps, p.Normal)
    (h : (reduce op ps).value = .ok e) : e.Normal :=
  (within_induction (R := ReducerNormal) (C := fun op c => op.IsProper → CombinerNormal op c)
    (fun _ _ _ _ _ h => by simp at h)
    (fun _ _ => ⟨fun _ _ h => by simp at h, fun h => by simp at h⟩)
    (fun _ hc => reducerNormal_reduceStep hc)
    (fun _ _ _ hf hc hop => combinerNormal_combineStep hop hf (hc hop))
    (depthFor op ps)).1 op ps e hop hps h

end Simplify

end Reckoner
