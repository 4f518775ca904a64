import Reckoner.Expr.Render
import Reckoner.Proofs.Interpretation

/-!
# What the text of an expression means

The grammar ties a minus sign at the start of an expression to the whole product after it, but one
inside an expression to the next term alone, so to the base of a power and not to the power. A
product within a product stands without parentheses and brings its own minus signs inside.
Therefore the meaning of a text is a `Reading`: how many minus signs there are, and what the rest
means if a sign is put on its first term.

A text means what its expression means unless a factor other than the first one is *loose*, which
is a product with minus signs before a power: the text `x*-y^2` of `x*(-(y^2))` has another meaning.
-/

namespace Reckoner

/-- The meaning of a text as a part of larger ones. -/
structure Reading where
  /-- The minus signs it starts with. -/
  signs : ℕ
  /-- The value of the rest, with a sign `1` or `-1` on its first term. -/
  body : ℚ → ℚ

namespace Reading

/-- A text that is a term by itself. -/
def plain (v : ℚ) : Reading := ⟨0, fun s => s * v⟩

/-- The meaning at the start of an expression: the first minus sign goes with the whole product. -/
def lead (r : Reading) : ℚ :=
  match r.signs with
  | 0 => r.body 1
  | n + 1 => -r.body ((-1) ^ n)

/-- The meaning inside of an expression, where all minus signs go with the first term. -/
def inner (r : Reading) : ℚ := r.body ((-1) ^ r.signs)

/-- The text with further factors after it. -/
def times (r : Reading) (v : ℚ) : Reading := ⟨r.signs, fun s => r.body s * v⟩

/-- The text with a minus sign before it. -/
def negative (r : Reading) : Reading := ⟨r.signs + 1, r.body⟩

/-- The text as a base, with an exponent after it. -/
def raised (r : Reading) (power : ℚ → ℚ → ℚ) (v : ℚ) : Reading := ⟨0, fun s => power (r.body s) v⟩

end Reading

/-- A number; one below zero starts with a minus sign. -/
def Number.reading (n : Number) : Reading :=
  if n.isNegative then ⟨1, fun s => s * -n.value⟩ else .plain n.value

namespace Expr

/-- An operand, which is in parentheses if it binds more loosely. -/
def operandReading (precedence : Nat) (e : Expr) (r : Reading) : Reading :=
  if e.precedence < precedence then .plain r.lead else r

/-- The factors after the first. -/
def factorsReading (qs : List (Expr × Reading)) : ℚ :=
  (qs.map fun q => (operandReading Operator.multiply.precedence q.1 q.2).inner).prod

/-- A product of two factors and others: a factor `-1` before anything but a number is a minus
sign, and another number stands without parentheses if it comes first. -/
def productReading (p q : Expr × Reading) (qs : List (Expr × Reading)) : Reading :=
  if p.1.same (.num .minusOne) && !q.1.isNumber then
    ((operandReading Operator.multiply.precedence q.1 q.2).times (factorsReading qs)).negative
  else if p.1.isNumber then p.2.times (factorsReading (q :: qs))
  else (operandReading Operator.multiply.precedence p.1 p.2).times (factorsReading (q :: qs))

/-- An application to expressions with the given readings; a call is a term. -/
def applicationReading (I : Interpretation) (op : Operator) (qs : List (Expr × Reading)) :
    Reading :=
  match op, qs with
  | .multiply, p :: q :: qs => productReading p q qs
  | .power, [b, e] => (operandReading Operator.power.precedence b.1 b.2).raised I.power e.2.lead
  | op, qs => .plain (I.apply op (qs.map (·.2.lead)))

mutual

/-- What the text of an expression means. -/
def reading (I : Interpretation) : Expr → Reading
  | .num n => n.reading
  | .sym name _ => .plain (I.symbol name)
  | .app op ps => applicationReading I op (readings I ps)

/-- Expressions with what their texts mean. -/
def readings (I : Interpretation) : List Expr → List (Expr × Reading)
  | [] => []
  | p :: ps => (p, reading I p) :: readings I ps

end

/-- The value of the text of an expression. -/
def textValue (I : Interpretation) (e : Expr) : ℚ := (e.reading I).lead

/-! ## Loose factors -/

mutual

/-- The text starts with a minus sign, as a factor. -/
def startsWithMinus : Expr → Bool
  | .num n => n.isNegative
  | .app .multiply ps => firstStartsWithMinus ps
  | _ => false

/-- The text of a product of the factors starts with a minus sign. -/
def firstStartsWithMinus : List Expr → Bool
  | p :: _ :: _ => p.startsWithMinus
  | _ => false

end

mutual

/-- The first term of the text, as a factor and after its minus signs, is the base of a power. -/
def startsWithPower : Expr → Bool
  | .app .power [_, _] => true
  | .app .multiply ps => firstStartsWithPower ps
  | _ => false

/-- The first term of the text of a product of the factors is the base of a power. -/
def firstStartsWithPower : List Expr → Bool
  | p :: q :: _ =>
    if p.same (.num .minusOne) && !q.isNumber then q.startsWithPower else p.startsWithPower
  | _ => false

end

/-- The text starts with minus signs that the grammar ties to the base of a power. -/
def isLoose (e : Expr) : Bool := e.startsWithMinus && e.startsWithPower

/-- Only the first factor of a product may be loose. -/
def SignsClear (e : Expr) : Prop :=
  e.EveryNode fun op ps => op = .multiply → ∀ p ∈ ps.tail, p.isLoose = false

instance (e : Expr) : Decidable e.SignsClear := inferInstanceAs (Decidable (EveryNode _ e))

end Expr

/-! ## Clear signs -/

namespace Reading

/-- A reading of the value `v`; `minus` and `power` say whether the text starts with a minus sign
and whether its first term is a base. -/
structure Faithful (r : Reading) (minus power : Bool) (v : ℚ) : Prop where
  /-- The value. -/
  value : (-1) ^ r.signs * r.body 1 = v
  /-- There are minus signs only if the text starts with one. -/
  signs : minus = false → r.signs = 0
  /-- A sign on the first term is a sign of the whole, unless that term is a base. -/
  linear : power = false → ∀ s, r.body s = s * r.body 1
  /-- There are not several signs before a base. -/
  single : r.signs ≤ 1 ∨ ∀ s, r.body s = s * r.body 1

variable {r : Reading} {minus power : Bool} {v : ℚ}

/-- At the start of an expression a faithful reading means the value. -/
theorem Faithful.lead (h : r.Faithful minus power v) : r.lead = v := by
  have hvalue := h.value
  unfold Reading.lead
  cases hn : r.signs with
  | zero =>
    rw [hn] at hvalue
    simpa using hvalue
  | succ n =>
    rw [hn] at hvalue
    have hbody : r.body ((-1) ^ n) = (-1) ^ n * r.body 1 := by
      rcases h.single with hone | hlin
      · obtain rfl : n = 0 := by omega
        simp
      · exact hlin _
    show -r.body ((-1) ^ n) = v
    rw [hbody, ← hvalue]
    ring

/-- Inside of an expression a faithful reading means the value unless there is a minus sign before a
power. -/
theorem Faithful.inner (h : r.Faithful minus power v) (hclear : (minus && power) = false) :
    r.inner = v := by
  have hvalue := h.value
  unfold Reading.inner
  rcases Bool.and_eq_false_iff.1 hclear with hm | hp
  · rw [h.signs hm] at hvalue ⊢
    simpa using hvalue
  · rw [h.linear hp]
    exact hvalue

/-- What has no sign means the same everywhere. -/
theorem faithful_plain : (plain v).Faithful minus power v where
  value := by simp [plain]
  signs _ := rfl
  linear _ s := by simp [plain]
  single := .inr fun s => by simp [plain]

theorem Faithful.times (h : r.Faithful minus power v) (w : ℚ) :
    (r.times w).Faithful minus power (v * w) where
  value := by rw [← h.value]; simp [Reading.times, mul_assoc]
  signs := h.signs
  linear hp s := by simp only [Reading.times]; rw [h.linear hp s, mul_assoc]
  single := h.single.imp_right fun hlin s => by
    simp only [Reading.times]
    rw [hlin s, mul_assoc]

/-- A minus sign in front is faithful if the text may stand inside of an expression. -/
theorem Faithful.negative (h : r.Faithful minus power v) (hclear : (minus && power) = false) :
    r.negative.Faithful true power (-v) where
  value := by
    have hvalue := h.value
    simp only [Reading.negative, pow_succ]
    rw [← hvalue]
    ring
  signs hm := by cases hm
  linear hp := h.linear hp
  single := by
    rcases Bool.and_eq_false_iff.1 hclear with hm | hp
    · exact .inl (by simp [Reading.negative, h.signs hm])
    · exact .inr (h.linear hp)

/-- A base without a sign may be raised. -/
theorem Faithful.raised (h : r.Faithful false power v) (f : ℚ → ℚ → ℚ) (w : ℚ) :
    (r.raised f w).Faithful false true (f v w) where
  value := by
    have hvalue := h.value
    rw [h.signs rfl] at hvalue
    simp only [pow_zero, one_mul] at hvalue
    simp [Reading.raised, hvalue]
  signs _ := rfl
  linear hp := by cases hp
  single := .inl (Nat.zero_le 1)

end Reading

namespace Expr

variable {I : Interpretation}

theorem readings_eq_map (ps : List Expr) : readings I ps = ps.map fun p => (p, p.reading I) := by
  induction ps with
  | nil => rfl
  | cons p ps ih => rw [readings, ih, List.map_cons]

/-- The reading of an expression is faithful. -/
def IsFaithful (I : Interpretation) (e : Expr) : Prop :=
  (e.reading I).Faithful e.startsWithMinus e.startsWithPower (e.value I)

/-- An operand is read faithfully, in parentheses or without. -/
theorem IsFaithful.operand {e : Expr} (h : e.IsFaithful I) (precedence : Nat) :
    (operandReading precedence e (e.reading I)).Faithful e.startsWithMinus e.startsWithPower
      (e.value I) := by
  unfold operandReading
  split_ifs
  · rw [h.lead]
    exact Reading.faithful_plain
  · exact h

/-- A base without parentheses does not start with a minus sign. -/
theorem startsWithMinus_eq_false {e : Expr} (h : Operator.power.precedence ≤ e.precedence) :
    e.startsWithMinus = false := by
  cases e with
  | num n =>
    simp only [startsWithMinus]
    by_contra hn
    rw [Bool.not_eq_false] at hn
    simp [precedence, hn, Operator.precedence] at h
  | sym name role => rfl
  | app op ps =>
    cases op with
    | multiply => simp [precedence, Operator.precedence] at h
    | _ => simp [startsWithMinus]

/-- Written as a base, an expression has no minus sign in front, since there are parentheses if need
be. -/
theorem IsFaithful.base {e : Expr} (h : e.IsFaithful I) :
    (operandReading Operator.power.precedence e (e.reading I)).Faithful false e.startsWithPower
      (e.value I) := by
  unfold operandReading
  split_ifs with hlt
  · rw [h.lead]
    exact Reading.faithful_plain
  · rw [← startsWithMinus_eq_false (Nat.not_lt.1 hlt)]
    exact h

/-- Factors none of which is loose mean the product of their values. -/
theorem factorsReading_eq (ps : List Expr) (h : ∀ p ∈ ps, p.IsFaithful I ∧ p.isLoose = false) :
    factorsReading (ps.map fun p => (p, p.reading I)) = (ps.map (value I)).prod := by
  unfold factorsReading
  rw [List.map_map]
  congr 1
  refine List.map_congr_left fun p hp => ?_
  obtain ⟨hfaithful, hloose⟩ := h p hp
  exact (hfaithful.operand _).inner hloose

theorem eq_of_same_minusOne {e : Expr} (h : e.same (.num .minusOne) = true) :
    e = .num (.integer (-1)) := by
  cases e with
  | num n =>
    cases n <;> simp_all [same, Number.same, Number.plain, Number.minusOne]
  | sym name role => simp [same] at h
  | app op ps => simp [same] at h

/-- A product is read faithfully if no factor but the first one is loose. -/
theorem isFaithful_product {p q : Expr} {ps : List Expr}
    (h : ∀ x ∈ p :: q :: ps, x.IsFaithful I) (hclear : ∀ x ∈ q :: ps, x.isLoose = false) :
    (Expr.app .multiply (p :: q :: ps)).IsFaithful I := by
  have hp := h p (by simp)
  have hq := h q (by simp)
  have hps := factorsReading_eq (I := I) ps fun x hx =>
    ⟨h x (by simp [hx]), hclear x (by simp [hx])⟩
  have hqps := factorsReading_eq (I := I) (q :: ps) fun x hx =>
    ⟨h x (List.mem_cons_of_mem _ hx), hclear x hx⟩
  unfold IsFaithful
  rw [reading, readings_eq_map, value_multiply]
  simp only [List.map_cons, List.prod_cons, applicationReading, productReading, startsWithMinus,
    firstStartsWithMinus, startsWithPower, firstStartsWithPower] at hqps ⊢
  split_ifs with hminus hnumber
  · -- the factor `-1` is a minus sign
    obtain rfl := eq_of_same_minusOne (Bool.and_eq_true_iff.1 hminus).1
    have hsigned := ((hq.operand Operator.multiply.precedence).times
      (ps.map (value I)).prod).negative (hclear q (by simp))
    rw [hps]
    have hvalue : (Expr.num (.integer (-1))).value I * (q.value I * (ps.map (value I)).prod) =
        -(q.value I * (ps.map (value I)).prod) := by simp [Number.value]
    rw [hvalue]
    exact hsigned
  · rw [hqps]
    exact hp.times _
  · rw [hqps]
    exact (hp.operand _).times _

/-- With clear signs everywhere, every text means what its expression means. -/
theorem isFaithful_of_signsClear (e : Expr) (h : e.SignsClear) : e.IsFaithful I := by
  induction e using Expr.induction with
  | num n =>
    unfold IsFaithful
    rw [reading, value_num, Number.reading]
    split_ifs with hn
    · exact ⟨by simp, fun hminus => by simp [startsWithMinus, hn] at hminus, fun _ s => by simp,
        .inl le_rfl⟩
    · exact Reading.faithful_plain
  | sym name role =>
    unfold IsFaithful
    rw [reading, value_sym]
    exact Reading.faithful_plain
  | app op ps ih =>
    obtain ⟨hnode, hps⟩ := everyNode_app.1 h
    have hfaithful : ∀ p ∈ ps, p.IsFaithful I := fun p hp => ih p hp (hps p hp)
    -- a call means what the arithmetic of its parameters means, and so does a sum
    have hplain : ((Reading.plain (I.apply op ((readings I ps).map (·.2.lead)))).Faithful
        (Expr.app op ps).startsWithMinus (Expr.app op ps).startsWithPower
        ((Expr.app op ps).value I)) := by
      have hleads : (readings I ps).map (·.2.lead) = ps.map (value I) := by
        rw [readings_eq_map, List.map_map]
        exact List.map_congr_left fun p hp => (hfaithful p hp).lead
      rw [hleads, value_app]
      exact Reading.faithful_plain
    cases op with
    | multiply =>
      match ps, ih, hplain with
      | [], _, hplain => exact hplain
      | [_], _, hplain => exact hplain
      | p :: q :: ps, _, _ =>
        exact isFaithful_product hfaithful fun x hx => hnode rfl x hx
    | power =>
      match ps, ih, hplain with
      | [], _, hplain => exact hplain
      | [_], _, hplain => exact hplain
      | [b, e], _, _ =>
        have hb := (hfaithful b (by simp)).base
        have hpower := hb.raised I.power (e.reading I).lead
        unfold IsFaithful
        rw [value_power, ← (hfaithful e (by simp)).lead]
        exact hpower
      | _ :: _ :: _ :: _, _, hplain => exact hplain
    | add => exact hplain
    | define id => exact hplain
    | extension x => exact hplain

/-- If only first factors are loose, the text of an expression has the value of the expression. -/
theorem textValue_eq_value (I : Interpretation) {e : Expr} (h : e.SignsClear) :
    e.textValue I = e.value I :=
  (isFaithful_of_signsClear e h).lead

end Expr

end Reckoner
