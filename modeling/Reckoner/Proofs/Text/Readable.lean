import Reckoner.Proofs.Grammar.Positions
import Reckoner.Proofs.Session
import Reckoner.Proofs.Text.Written

/-!
# What is read can be written

A numeral is not read if it has too many digits, so every number of an expression that was read has
a text: an integer has no more digits than its numeral, and the numerator and the denominator of a
ratio divide the integers of which it was made.
-/

namespace Reckoner

open Grammar Reckoner.Expr

/-! ## Numbers of bounded length -/

/-- A numeral is below the power of ten with its length. -/
theorem digitsValue_lt {ds : List Char} (h : ∀ c ∈ ds, c.isDigit = true) :
    digitsValue ds < 10 ^ ds.length := by
  have hfold : ∀ (ds : List Char) (n : ℕ), (∀ c ∈ ds, c.isDigit = true) →
      ds.foldl (fun n c => 10 * n + (c.toNat - '0'.toNat)) n < (n + 1) * 10 ^ ds.length := by
    intro ds
    induction ds with
    | nil => simp
    | cons c ds ih =>
      intro n hds
      obtain ⟨hc, hds⟩ := List.forall_mem_cons.1 hds
      have hdigit : c.toNat - '0'.toNat < 10 := by
        simp only [Char.isDigit, Bool.and_eq_true, decide_eq_true_eq, UInt32.le_iff_toNat_le] at hc
        have hle : c.toNat ≤ 57 := hc.2
        show c.toNat - 48 < 10
        omega
      calc ds.foldl _ (10 * n + (c.toNat - '0'.toNat))
          < (10 * n + (c.toNat - '0'.toNat) + 1) * 10 ^ ds.length := ih _ hds
        _ ≤ (10 * (n + 1)) * 10 ^ ds.length := Nat.mul_le_mul_right _ (by omega)
        _ = (n + 1) * 10 ^ (c :: ds).length := by rw [List.length_cons, pow_succ]; ring
  have hzero := hfold ds 0 h
  rwa [Nat.zero_add, Nat.one_mul] at hzero

/-- What is no larger than a number with a text has one. -/
theorem hasDecimal_of_natAbs_le {m n : ℤ} (hm : hasDecimal m = true)
    (h : n.natAbs ≤ m.natAbs) : hasDecimal n = true :=
  decide_eq_true (h.trans_lt (of_decide_eq_true hm))

theorem hasDecimal_minusOne : hasDecimal (-1) = true := by decide +kernel

/-- A ratio of two numbers with texts has a text, since both are only reduced. -/
theorem hasText_divInt {a b : ℤ} (ha : hasDecimal a = true) (hb : hasDecimal b = true) :
    (Number.fraction (Rat.divInt a b)).hasText = true := by
  have hnum : (Rat.divInt a b).num.natAbs ≤ a.natAbs := by
    by_cases hb0 : b = 0
    · simp [hb0]
    by_cases ha0 : a = 0
    · simp [ha0]
    exact Int.natAbs_le_of_dvd_ne_zero (Rat.num_dvd a hb0) ha0
  have hden : ((Rat.divInt a b).den : ℤ).natAbs ≤ max b.natAbs 1 := by
    by_cases hb0 : b = 0
    · simp [hb0]
    · exact (Int.natAbs_le_of_dvd_ne_zero (Rat.den_dvd a b) hb0).trans (le_max_left _ _)
  rw [Number.hasText, Bool.and_eq_true]
  refine ⟨hasDecimal_of_natAbs_le ha hnum, ?_⟩
  rcases le_total b.natAbs 1 with hle | hle
  · exact hasDecimal_of_natAbs_le hasDecimal_minusOne (by rwa [max_eq_right hle] at hden)
  · exact hasDecimal_of_natAbs_le hb (by rwa [max_eq_left hle] at hden)

/-- Negating a number keeps its length. -/
theorem hasText_negateExact? {n m : Number} (hn : n.hasText = true)
    (h : n.negateExact? = some m) : m.hasText = true := by
  cases n with
  | integer k =>
    obtain rfl : .integer (-k) = m := Option.some.inj h
    exact hasDecimal_of_natAbs_le hn (by simp)
  | double x => cases h
  | fraction q =>
    obtain rfl : .fraction (-q) = m := Option.some.inj h
    rw [Number.hasText, Bool.and_eq_true] at hn ⊢
    exact ⟨hasDecimal_of_natAbs_le hn.1 (by simp), by simpa using hn.2⟩
  | unit =>
    obtain rfl : .integer (-1) = m := Option.some.inj h
    exact hasDecimal_minusOne

/-- Every numeral that is read can be written again. -/
theorem hasText_readNumeral {position : ℕ} {ds : List Char} {fs : Option (List Char)} {n : Number}
    (hdigits : ∀ c ∈ ds, c.isDigit = true) (h : readNumeral position ds fs = .ok n) :
    n.hasText = true := by
  unfold readNumeral at h
  split at h
  · cases h
    rfl
  · split at h
    · cases h
    · next hlong =>
      cases h
      have hlt := digitsValue_lt hdigits
      rw [Number.hasText, hasDecimal]
      generalize maxDecimalDigits = limit at hlong
      exact decide_eq_true (hlt.trans_le (Nat.pow_le_pow_right (by omega) (by omega)))

/-! ## Expressions -/

/-- Numbers with a text, and ordinary operators. -/
def Material.readable : Material where
  number n := n.hasText = true
  symbol _ _ := True
  operator op := op.IsOrdinary

namespace Expr

/-- An expression has a text if its numbers have. -/
theorem MadeOf.hasText {e : Expr} (h : e.MadeOf .readable) : e.hasText = true := by
  induction e using Expr.induction with
  | num n => exact madeOf_num.1 h
  | sym name role => rfl
  | app op ps ih =>
    rw [Expr.hasText, allHaveText_iff]
    exact fun p hp => ih p hp ((madeOf_app.1 h).2 p hp)

end Expr

theorem isDigit_of_mem_tokens {text : List Char} {t : Token} (ht : t ∈ tokens text)
    {ds : List Char} {fs : Option (List Char)} (h : t.lexeme = .numeral ds fs) :
    ∀ c ∈ ds, c.isDigit = true := by
  obtain ⟨before, c, cs, -, -, hlexeme, -⟩ :=
    standsIn_of_mem_tokensFrom [] text rfl (by simp) ht
  obtain ⟨hc, rfl⟩ := ofChars_eq_numeral (hlexeme.symm.trans h)
  exact List.forall_mem_cons.2 ⟨hc, fun d hd => List.mem_takeWhile_imp hd⟩

namespace Registry

variable {r : Registry} {id : StoreId}

/-- What is read with a sound registry is made of numbers with texts. -/
theorem Sound.gives_readable (hr : r.Sound) :
    (r.scope id).Gives (fun t => ∀ ds fs, t.lexeme = .numeral ds fs → ∀ c ∈ ds, c.isDigit = true)
      .readable where
  numeral hF h := hasText_readNumeral (hF _ _ rfl) h
  negated hn h := hasText_negateExact? hn h
  minusOne := hasDecimal_minusOne
  ratio ha hb := hasText_divInt ha hb
  arithmetic hop := Scope.operator_current hr.operators hop.isOrdinary
  definition _ := Scope.operator_current hr.operators Operator.isOrdinary_define
  symbol _ h := by
    rcases Scope.symbol_eq_ok h with ⟨-, op, -, rfl⟩ | ⟨-, rfl⟩
    · exact madeOf_sym.2 trivial
    · split <;> exact madeOf_sym.2 trivial
  call _ h := by
    rcases Scope.symbol_eq_ok h with ⟨-, op, hop, heq⟩ | ⟨-, heq⟩
    · cases heq
      exact hr.operators _ _ hop
    · split at heq <;> cases heq

/-- Every number of an expression that was read has a text. -/
theorem Sound.readable (hr : r.Sound) {text : String} {e : Expr}
    (h : (r.scope id).read text = .ok e) : e.MadeOf .readable :=
  Scope.madeOf_readWithin hr.gives_readable
    (fun _ ht _ _ hlexeme => isDigit_of_mem_tokens ht hlexeme)
    h

end Registry

end Reckoner
