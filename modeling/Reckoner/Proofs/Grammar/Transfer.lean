import Reckoner.Proofs.Grammar.Derivation
import Mathlib.Data.List.Forall2

/-!
# Derivations under other actions

The rules of the grammar are the same for all actions, so a relation that what one kind of actions
makes of the parts of a phrase has to what another kind makes of them takes derivations to
derivations. Names, numerals and carets may be subject to conditions, which are those of the lexemes
`F` that a text has. A map is a relation that gives one meaning to each.
-/

namespace Reckoner

open Grammar

variable {α β : Type}

/-- What the first actions make of the parts of an expression is related to what the second ones
make of related parts, for lexemes with `F`. -/
structure Actions.Relates (F : Lexeme → Prop) (R : α → β → Prop) (A : Actions α) (B : Actions β) :
    Prop where
  /-- Names by themselves. -/
  name : ∀ {cs a}, F (.name cs) → A.name cs a → ∃ b, R a b ∧ B.name cs b
  /-- Calls. -/
  call : ∀ {cs as bs a}, F (.name cs) → List.Forall₂ R as bs → A.call cs as a →
    ∃ b, R a b ∧ B.call cs bs b
  /-- Numerals. -/
  numeral : ∀ {ds fs a}, F (.numeral ds fs) → A.numeral ds fs a → ∃ b, R a b ∧ B.numeral ds fs b
  /-- Terms after a minus sign. -/
  negative : ∀ {a b}, R a b → R (A.negative a) (B.negative b)
  /-- Powers. -/
  power : ∀ {a b as bs}, R a b → List.Forall₂ R as bs → (as ≠ [] → ∃ c, F (.mark .caret c)) →
    R (A.power a as) (B.power b bs)
  /-- What can be divided by. -/
  divisor : ∀ {a b}, R a b → A.divisor a → B.divisor b
  /-- Divisions. -/
  division : ∀ {a b as bs}, R a b → List.Forall₂ R as bs → (∀ d ∈ as, A.divisor d) →
    R (A.division a as) (B.division b bs)
  /-- Multiplications. -/
  multiplication : ∀ {a b as bs} (negative : Bool), R a b → List.Forall₂ R as bs →
    R (A.multiplication negative a as) (B.multiplication negative b bs)
  /-- Sums. -/
  expression : ∀ {a b as bs}, R a b → List.Forall₂ R as bs →
    R (A.expression a as) (B.expression b bs)

namespace Grammar

/-- Related phrases, for lexemes with `F`. -/
def Transfers (F : Lexeme → Prop) (R : α → β → Prop) (P : Phrase α) (Q : Phrase β) : Prop :=
  ∀ ls a, (∀ l ∈ ls, F l) → P ls a → ∃ b, R a b ∧ Q ls b

variable {F : Lexeme → Prop} {R : α → β → Prop} {A : Actions α} {B : Actions β}
variable {P T : Phrase α} {Q U : Phrase β}

/-- A row of phrases is carried over phrase by phrase. -/
theorem Transfers.many (h : Transfers F R P Q) {ls : List Lexeme} {as : List α}
    (hls : ∀ l ∈ ls, F l) (hmany : Many P ls as) : ∃ bs, List.Forall₂ R as bs ∧ Many Q ls bs := by
  induction hmany with
  | nil => exact ⟨[], .nil, .nil⟩
  | cons head _ ih =>
    obtain ⟨hhead, htail⟩ := List.forall_mem_append.1 hls
    obtain ⟨b, hb, hQ⟩ := h _ _ hhead head
    obtain ⟨bs, hbs, hmany⟩ := ih htail
    exact ⟨b :: bs, .cons hb hbs, .cons hQ hmany⟩

theorem Transfers.after (h : Transfers F R P Q) (k : LexemeKind) :
    Transfers F R (After k P) (After k Q) := by
  rintro ls a hls ⟨c, ha⟩
  obtain ⟨b, hb, hQ⟩ := h _ _ (List.forall_mem_cons.1 hls).2 ha
  exact ⟨b, hb, .intro c hQ⟩

/-- A phrase after a mark starts with that mark. -/
theorem exists_mark_of_many {k : LexemeKind} {ls : List Lexeme} {as : List α}
    (hls : ∀ l ∈ ls, F l) (h : Many (After k P) ls as) (hne : as ≠ []) :
    ∃ c, F (.mark k c) := by
  cases h with
  | nil => exact absurd rfl hne
  | cons head _ =>
    obtain ⟨c, -⟩ := head
    exact ⟨c, hls _ (by simp)⟩

/-- All that stands behind slashes can be divided by. -/
theorem divisor_of_many {ls : List Lexeme} {as : List α}
    (h : Many (After .slash (Divisor A T)) ls as) : ∀ d ∈ as, A.divisor d := by
  induction h with
  | nil => simp
  | cons head _ ih =>
    obtain ⟨c, -, hdivisor⟩ := head
    exact List.forall_mem_cons.2 ⟨hdivisor, ih⟩

variable (hrel : A.Relates F R B)

include hrel

theorem Transfers.power (hT : Transfers F R T U) : Transfers F R (Power A T) (Power B U) := by
  rintro ls a hls ⟨base, exponents⟩
  obtain ⟨hbase, hexponents⟩ := List.forall_mem_append.1 hls
  obtain ⟨b, hb, hU⟩ := hT _ _ hbase base
  obtain ⟨bs, hbs, hmany⟩ := (hT.after .caret).many hexponents exponents
  have hcaret := exists_mark_of_many hexponents exponents
  exact ⟨_, hrel.power hb hbs hcaret, .intro hU hmany⟩

theorem Transfers.divisor (hT : Transfers F R T U) : Transfers F R (Divisor A T) (Divisor B U) := by
  rintro ls a hls ⟨hpower, hdivisor⟩
  obtain ⟨b, hb, hQ⟩ := Transfers.power hrel hT ls a hls hpower
  exact ⟨b, hb, hQ, hrel.divisor hb hdivisor⟩

/-- Divisions are carried over if powers are: the divisors of both sides are those of related
parts. -/
theorem Transfers.division (hT : Transfers F R T U) :
    Transfers F R (Division A T) (Division B U) := by
  rintro ls a hls ⟨numerator, divisors⟩
  obtain ⟨hnumerator, hdivisors⟩ := List.forall_mem_append.1 hls
  obtain ⟨b, hb, hQ⟩ := Transfers.power hrel hT _ _ hnumerator numerator
  obtain ⟨bs, hbs, hmany⟩ := ((Transfers.divisor hrel hT).after .slash).many hdivisors divisors
  exact ⟨_, hrel.division hb hbs (divisor_of_many divisors), .intro hQ hmany⟩

theorem Transfers.multiplication (hT : Transfers F R T U) (negative : Bool) :
    Transfers F R (Multiplication A T negative) (Multiplication B U negative) := by
  rintro ls a hls ⟨first, factors⟩
  obtain ⟨hfirst, hfactors⟩ := List.forall_mem_append.1 hls
  have hdivision := Transfers.division hrel hT
  obtain ⟨b, hb, hQ⟩ := hdivision _ _ hfirst first
  obtain ⟨bs, hbs, hmany⟩ := (hdivision.after .star).many hfactors factors
  exact ⟨_, hrel.multiplication negative hb hbs, .intro hQ hmany⟩

theorem Transfers.signed (hT : Transfers F R T U) : Transfers F R (Signed A T) (Signed B U) := by
  intro ls a hls h
  cases h with
  | plus h =>
    obtain ⟨b, hb, hQ⟩ := (Transfers.multiplication hrel hT false).after .plus ls a hls h
    exact ⟨b, hb, .plus hQ⟩
  | minus h =>
    obtain ⟨b, hb, hQ⟩ := (Transfers.multiplication hrel hT true).after .minus ls a hls h
    exact ⟨b, hb, .minus hQ⟩

theorem Transfers.leading (hT : Transfers F R T U) : Transfers F R (Leading A T) (Leading B U) := by
  intro ls a hls h
  cases h with
  | signed h =>
    obtain ⟨b, hb, hQ⟩ := Transfers.signed hrel hT ls a hls h
    exact ⟨b, hb, .signed hQ⟩
  | unsigned h first =>
    obtain ⟨b, hb, hQ⟩ := Transfers.multiplication hrel hT false ls a hls h
    exact ⟨b, hb, .unsigned hQ first⟩

/-- Expressions are carried over if terms are. -/
theorem Transfers.expression (hT : Transfers F R T U) :
    Transfers F R (Expression A T) (Expression B U) := by
  rintro ls a hls ⟨first, terms⟩
  obtain ⟨hfirst, hterms⟩ := List.forall_mem_append.1 hls
  obtain ⟨b, hb, hQ⟩ := Transfers.leading hrel hT _ _ hfirst first
  obtain ⟨bs, hbs, hmany⟩ := (Transfers.signed hrel hT).many hterms terms
  exact ⟨_, hrel.expression hb hbs, .intro hQ hmany⟩

theorem Transfers.parameters (hT : Transfers F R T U) {ls : List Lexeme} {as : List α}
    (hls : ∀ l ∈ ls, F l) (h : Parameters A T ls as) :
    ∃ bs, List.Forall₂ R as bs ∧ Parameters B U ls bs := by
  have hexpression := Transfers.expression hrel hT
  cases h with
  | none => exact ⟨[], .nil, .none⟩
  | some first others =>
    obtain ⟨hfirst, hothers⟩ := List.forall_mem_append.1 hls
    obtain ⟨b, hb, hQ⟩ := hexpression _ _ hfirst first
    obtain ⟨bs, hbs, hmany⟩ := (hexpression.after .comma).many hothers others
    exact ⟨b :: bs, .cons hb hbs, .some hQ hmany⟩

/-- Terms are carried over, rule by rule, if the terms inside are. -/
theorem Transfers.term (hT : Transfers F R T U) : Transfers F R (Term A T) (Term B U) := by
  intro ls a hls h
  cases h with
  | negative c h =>
    obtain ⟨b, hb, hU⟩ := hT _ _ (List.forall_mem_cons.1 hls).2 h
    exact ⟨_, hrel.negative hb, .negative c hU⟩
  | name h =>
    obtain ⟨b, hb, hname⟩ := hrel.name (hls _ (by simp)) h
    exact ⟨b, hb, .name hname⟩
  | call c c' h value =>
    obtain ⟨bs, hbs, hparams⟩ := Transfers.parameters hrel hT (fun l hl => hls l (by simp [hl])) h
    obtain ⟨b, hb, hvalue⟩ := hrel.call (hls _ (by simp)) hbs value
    exact ⟨b, hb, .call c c' hparams hvalue⟩
  | numeral h =>
    obtain ⟨b, hb, hnumeral⟩ := hrel.numeral (hls _ (by simp)) h
    exact ⟨b, hb, .numeral hnumeral⟩
  | group c c' h =>
    obtain ⟨b, hb, hQ⟩ := Transfers.expression hrel hT _ _ (fun l hl => hls l (by simp [hl])) h
    exact ⟨b, hb, .group c c' hQ⟩

/-- Terms of any depth are carried over. The induction is on the depth. -/
theorem transfers_termAt (depth : Nat) : Transfers F R (termAt A depth) (termAt B depth) := by
  induction depth with
  | zero => exact fun _ _ _ h => h.elim
  | succ depth ih => exact Transfers.term hrel ih

end Grammar

/-! ## Maps -/

/-- The map takes what the first actions make of the parts of an expression to what the second ones
make of them, for names and numerals with `F`. -/
structure Actions.Maps (F : Lexeme → Prop) (f : α → β) (A : Actions α) (B : Actions β) :
    Prop where
  /-- Names by themselves. -/
  name : ∀ {cs a}, F (.name cs) → A.name cs a → B.name cs (f a)
  /-- Calls. -/
  call : ∀ {cs as a}, F (.name cs) → A.call cs as a → B.call cs (as.map f) (f a)
  /-- Numerals. -/
  numeral : ∀ {ds fs a}, F (.numeral ds fs) → A.numeral ds fs a → B.numeral ds fs (f a)
  /-- Terms after a minus sign. -/
  negative : ∀ a, f (A.negative a) = B.negative (f a)
  /-- Powers. -/
  power : ∀ a as, f (A.power a as) = B.power (f a) (as.map f)
  /-- What can be divided by. -/
  divisor : ∀ {a}, A.divisor a → B.divisor (f a)
  /-- Divisions. -/
  division : ∀ a as, f (A.division a as) = B.division (f a) (as.map f)
  /-- Multiplications. -/
  multiplication : ∀ negative a as,
    f (A.multiplication negative a as) = B.multiplication negative (f a) (as.map f)
  /-- Sums. -/
  expression : ∀ a as, f (A.expression a as) = B.expression (f a) (as.map f)

variable {F : Lexeme → Prop} {f : α → β} {A : Actions α} {B : Actions β}

theorem forall₂_map_iff {as : List α} {bs : List β} :
    List.Forall₂ (fun a b => f a = b) as bs ↔ as.map f = bs := by
  rw [← List.forall₂_eq_eq_eq, List.forall₂_map_left_iff]

/-- What a map gives is related to what it is given for. -/
theorem Actions.Maps.relates (h : A.Maps F f B) : A.Relates F (fun a b => f a = b) B where
  name hF ha := ⟨_, rfl, h.name hF ha⟩
  call hF has ha := ⟨_, rfl, forall₂_map_iff.1 has ▸ h.call hF ha⟩
  numeral hF ha := ⟨_, rfl, h.numeral hF ha⟩
  negative := by
    rintro a _ rfl
    exact h.negative a
  power := by
    rintro a _ as bs rfl has -
    rw [h.power, forall₂_map_iff.1 has]
  divisor := by
    rintro a _ rfl
    exact h.divisor
  division := by
    rintro a _ as bs rfl has -
    rw [h.division, forall₂_map_iff.1 has]
  multiplication := by
    rintro a _ as bs negative rfl has
    rw [h.multiplication, forall₂_map_iff.1 has]
  expression := by
    rintro a _ as bs rfl has
    rw [h.expression, forall₂_map_iff.1 has]

namespace Grammar

/-- The map takes the first phrases to the second ones, for lexemes with `F`. -/
def Carries (F : Lexeme → Prop) (f : α → β) (P : Phrase α) (Q : Phrase β) : Prop :=
  ∀ ls a, (∀ l ∈ ls, F l) → P ls a → Q ls (f a)

variable {P T : Phrase α} {Q U : Phrase β}

/-- To carry phrases over by a map is to carry them over by its graph. -/
theorem carries_iff : Carries F f P Q ↔ Transfers F (fun a b => f a = b) P Q := by
  constructor
  · intro h ls a hls ha
    exact ⟨f a, rfl, h ls a hls ha⟩
  · intro h ls a hls ha
    obtain ⟨b, rfl, hb⟩ := h ls a hls ha
    exact hb

theorem Carries.expression (hmap : A.Maps F f B) (hT : Carries F f T U) :
    Carries F f (Expression A T) (Expression B U) :=
  carries_iff.2 (Transfers.expression hmap.relates (carries_iff.1 hT))

/-- A map of actions carries terms of any depth over. -/
theorem carries_termAt (hmap : A.Maps F f B) (depth : Nat) :
    Carries F f (termAt A depth) (termAt B depth) :=
  carries_iff.2 (transfers_termAt hmap.relates depth)

end Grammar

end Reckoner
