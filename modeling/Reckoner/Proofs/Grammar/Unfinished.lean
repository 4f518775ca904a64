import Mathlib.Algebra.GroupWithZero.Nat
import Mathlib.Data.List.Chain
import Reckoner.Grammar.Token

/-!
# What surrounds a place in a text

A place in a text stands inside of the parentheses and calls that are open there, and behind the
minus signs that wait for their terms. Both can be told from the tokens before the place: a minus
sign belongs to a term if an operator stands directly before it, and it waits until something stands
behind its term. How deeply a text is nested is how much surrounds one of its places at most; how
long its sums, products and chains are does not matter.
-/

namespace Reckoner

/-- A minus sign directly behind such a mark belongs to a term. -/
inductive LexemeKind.IsOperator : LexemeKind → Prop where
  | plus : IsOperator .plus
  | minus : IsOperator .minus
  | star : IsOperator .star
  | slash : IsOperator .slash
  | caret : IsOperator .caret

/-- What the tokens before a place leave unfinished. -/
structure Unfinished where
  /-- The minus signs before each open parenthesis or its call, the innermost parenthesis first. -/
  outside : List Nat
  /-- The minus signs before the term that is next, or that is the last. -/
  signs : Nat
  /-- The last token is an operator, so that a minus sign would belong to a term. -/
  afterOperator : Bool
  deriving DecidableEq

namespace Unfinished

/-- Before a text nothing is unfinished. -/
def start : Unfinished := ⟨[], 0, false⟩

/-- What is unfinished after one more lexeme. -/
def next (u : Unfinished) : Lexeme → Unfinished
  | .mark .minus _ => ⟨u.outside, if u.afterOperator then u.signs + 1 else 0, true⟩
  | .mark .plus _ => ⟨u.outside, 0, true⟩
  | .mark .star _ => ⟨u.outside, 0, true⟩
  | .mark .slash _ => ⟨u.outside, 0, true⟩
  | .mark .caret _ => ⟨u.outside, 0, true⟩
  | .mark .comma _ => ⟨u.outside, 0, false⟩
  | .mark .equals _ => ⟨u.outside, 0, false⟩
  | .mark .opening _ => ⟨u.signs :: u.outside, 0, false⟩
  | .mark .closing _ => ⟨u.outside.tail, u.outside.headD 0, false⟩
  | _ => ⟨u.outside, u.signs, false⟩

/-- What is unfinished after more tokens. -/
def after (u : Unfinished) (ts : List Token) : Unfinished := ts.foldl (fun u t => u.next t.lexeme) u

/-- How many parentheses, calls and minus signs are unfinished. -/
def depth (u : Unfinished) : Nat := u.outside.length + u.outside.sum + u.signs

/-- How much is unfinished at most, before one of the tokens or after all of them. -/
def deepest (u : Unfinished) : List Token → Nat
  | [] => u.depth
  | t :: ts => max u.depth ((u.next t.lexeme).deepest ts)

theorem after_append (u : Unfinished) (ts ts' : List Token) :
    u.after (ts ++ ts') = (u.after ts).after ts' := List.foldl_append

theorem depth_after_le_deepest (u : Unfinished) (before rest : List Token) :
    (u.after before).depth ≤ u.deepest (before ++ rest) := by
  induction before generalizing u with
  | nil =>
    cases rest with
    | nil => exact Nat.le_refl _
    | cons t rest => exact Nat.le_max_left _ _
  | cons t before ih => exact Nat.le_trans (ih (u.next t.lexeme)) (Nat.le_max_right _ _)

/-- Only an opening parenthesis and a minus sign behind an operator leave more unfinished. -/
theorem depth_next_le {u : Unfinished} {l : Lexeme} (hopening : ∀ c, l ≠ .mark .opening c)
    (hsign : u.afterOperator = true → ∀ c, l ≠ .mark .minus c) : (u.next l).depth ≤ u.depth := by
  have hoperator : ∀ b, Unfinished.depth ⟨u.outside, 0, b⟩ ≤ u.depth :=
    fun b => Nat.le_add_right _ _
  cases l with
  | mark k c =>
    cases k with
    | minus =>
      have hafter : u.afterOperator = false := Bool.eq_false_iff.2 fun h => hsign h c rfl
      have hsigns : u.next (.mark .minus c) = ⟨u.outside, 0, true⟩ := by simp [next, hafter]
      rw [hsigns]
      exact hoperator true
    | opening => exact absurd rfl (hopening c)
    | closing =>
      obtain ⟨outside, signs, after⟩ := u
      cases outside with
      | nil => exact Nat.zero_le _
      | cons m outside =>
        simp only [next, depth, List.tail_cons, List.headD_cons, List.length_cons, List.sum_cons]
        omega
    | finish | letter | digit => exact Nat.le_refl _
    | _ => exact hoperator _
  | _ => exact Nat.le_refl _

theorem isOperator_of_afterOperator {u : Unfinished} {l : Lexeme}
    (h : (u.next l).afterOperator = true) : ∃ k c, l = .mark k c ∧ k.IsOperator := by
  unfold next at h
  split at h
  · exact ⟨_, _, rfl, .minus⟩
  · exact ⟨_, _, rfl, .plus⟩
  · exact ⟨_, _, rfl, .star⟩
  · exact ⟨_, _, rfl, .slash⟩
  · exact ⟨_, _, rfl, .caret⟩
  all_goals cases h

end Unfinished

/-- How deeply a text is nested: how many parentheses, calls and minus signs surround one of its
places at most. -/
def nesting (text : List Char) : Nat := Unfinished.start.deepest (tokens text)

/-- There is no opening parenthesis, and no minus sign behind an operator. -/
structure Flat (ts : List Token) : Prop where
  no_opening : ∀ t ∈ ts, ∀ c, t.lexeme ≠ .mark .opening c
  no_sign : ts.IsChain fun t t' => ∀ k c d, k.IsOperator → t.lexeme = .mark k c →
    t'.lexeme ≠ .mark .minus d

theorem Unfinished.deepest_of_flat {u : Unfinished} {ts : List Token} (hts : Flat ts)
    (hfirst : u.afterOperator = true → ∀ t ∈ ts.head?, ∀ c, t.lexeme ≠ .mark .minus c) :
    u.deepest ts ≤ u.depth := by
  induction ts generalizing u with
  | nil => exact Nat.le_refl _
  | cons t ts ih =>
    have hnext : (u.next t.lexeme).depth ≤ u.depth :=
      depth_next_le (hts.no_opening t List.mem_cons_self) fun h => hfirst h t rfl
    have hrest : Flat ts := ⟨fun t' ht' => hts.no_opening t' (List.mem_cons_of_mem _ ht'),
      hts.no_sign.tail⟩
    have hmore : (u.next t.lexeme).deepest ts ≤ (u.next t.lexeme).depth := by
      refine ih hrest fun hafter t' ht' c => ?_
      obtain ⟨k, d, hk, hoperator⟩ := isOperator_of_afterOperator hafter
      exact hts.no_sign.rel_head? ht' k d c hoperator hk
    exact Nat.max_le.2 ⟨Nat.le_refl _, hmore.trans hnext⟩

/-- Sums, products and chains of divisions, powers and definitions are not nested, however long they
are. -/
theorem nesting_of_flat {text : List Char} (h : Flat (tokens text)) : nesting text = 0 :=
  Nat.le_zero.1 (Unfinished.deepest_of_flat h fun hafter => by cases hafter)

/-- The sum, the chain of powers and the signs before the parentheses do not count, and neither do
the parentheses that are closed. -/
example : nesting "-(1)+x^2^3*-(-f(-y)-g(z))".toList = 3 := by decide +kernel

end Reckoner
