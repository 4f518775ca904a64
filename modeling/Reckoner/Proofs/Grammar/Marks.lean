import Mathlib.Algebra.BigOperators.Group.List.Basic
import Mathlib.Algebra.Ring.Int.Defs
import Reckoner.Proofs.Grammar.Unambiguous

/-!
# Where marks stand

What can be derived has its marks in certain places only. Parentheses are balanced, and no equals
sign stands inside of them. After every slash stands a divisor, and it ends where the lexemes that
follow are too weak to go on with it; since the grammar is unambiguous, nothing else can be found
there.
-/

namespace Reckoner

open Grammar

/-! ## Parentheses -/

/-- How a lexeme changes the number of open parentheses. -/
def Lexeme.level : Lexeme → ℤ
  | .mark .opening _ => 1
  | .mark .closing _ => -1
  | _ => 0

/-- How many more parentheses open than close. -/
def level (ls : List Lexeme) : ℤ := (ls.map Lexeme.level).sum

@[simp] theorem level_nil : level [] = 0 := rfl

@[simp] theorem level_cons (l : Lexeme) (ls : List Lexeme) :
    level (l :: ls) = l.level + level ls := by simp [level]

@[simp] theorem level_append (ls ls' : List Lexeme) :
    level (ls ++ ls') = level ls + level ls' := by simp [level]

namespace Grammar

variable {α β : Type} {A : Actions α} {T : Phrase α} {Q : Phrase β}

/-- Parentheses are balanced, and there is no equals sign. -/
structure Enclosed (ls : List Lexeme) : Prop where
  balanced : level ls = 0
  noEquals : ∀ c, Lexeme.mark .equals c ∉ ls

namespace Enclosed

variable {ls ls' : List Lexeme}

theorem nil : Enclosed [] := ⟨rfl, by simp⟩

theorem append (h : Enclosed ls) (h' : Enclosed ls') : Enclosed (ls ++ ls') where
  balanced := by rw [level_append, h.balanced, h'.balanced, add_zero]
  noEquals c hc := (List.mem_append.1 hc).elim (h.noEquals c) (h'.noEquals c)

theorem cons {l : Lexeme} (hlevel : l.level = 0) (hl : ∀ c, l ≠ .mark .equals c)
    (h : Enclosed ls) : Enclosed (l :: ls) where
  balanced := by rw [level_cons, hlevel, h.balanced, add_zero]
  noEquals c hc := (List.mem_cons.1 hc).elim (fun heq => hl c heq.symm) (h.noEquals c)

theorem group (h : Enclosed ls) (c c' : Char) :
    Enclosed (.mark .opening c :: ls ++ [.mark .closing c']) where
  balanced := by simp [h.balanced, Lexeme.level]
  noEquals d hd := h.noEquals d (by simpa using hd)

/-- A row of phrases is balanced and without equals signs if each of them is. -/
theorem many (hQ : ∀ ls b, Q ls b → Enclosed ls) {bs : List β} (h : Many Q ls bs) :
    Enclosed ls := by
  induction h with
  | nil => exact .nil
  | cons head _ ih => exact (hQ _ _ head).append ih

theorem after {k : LexemeKind} (hQ : ∀ ls b, Q ls b → Enclosed ls)
    (hk : ∀ c, (Lexeme.mark k c).level = 0) (hequals : k ≠ .equals) (ls : List Lexeme) (b : β)
    (h : After k Q ls b) : Enclosed ls := by
  obtain ⟨c, h⟩ := h
  exact .cons (hk c) (by simp [hequals]) (hQ _ _ h)

section Terms

variable (hT : ∀ ls a, T ls a → Enclosed ls)

include hT

theorem power (ls : List Lexeme) (a : α) (h : Power A T ls a) : Enclosed ls := by
  obtain ⟨base, exponents⟩ := h
  exact (hT _ _ base).append (many (after hT (fun _ => rfl) (by simp)) exponents)

theorem division (ls : List Lexeme) (a : α) (h : Division A T ls a) : Enclosed ls := by
  obtain ⟨numerator, divisors⟩ := h
  have hdivisor : ∀ ls a, Divisor A T ls a → Enclosed ls := fun ls a h => power hT ls a h.1
  exact (power hT _ _ numerator).append (many (after hdivisor (fun _ => rfl) (by simp)) divisors)

theorem multiplication {negative : Bool} (ls : List Lexeme) (a : α)
    (h : Multiplication A T negative ls a) : Enclosed ls := by
  obtain ⟨first, factors⟩ := h
  exact (division hT _ _ first).append
    (many (after (division hT) (fun _ => rfl) (by simp)) factors)

theorem signed (ls : List Lexeme) (a : α) (h : Signed A T ls a) : Enclosed ls := by
  cases h with
  | plus h => exact after (multiplication hT) (fun _ => rfl) (by simp) _ _ h
  | minus h => exact after (multiplication hT) (fun _ => rfl) (by simp) _ _ h

theorem expression (ls : List Lexeme) (a : α) (h : Expression A T ls a) : Enclosed ls := by
  obtain ⟨first, terms⟩ := h
  refine append ?_ (many (signed hT) terms)
  cases first with
  | signed h => exact signed hT _ _ h
  | unsigned h _ => exact multiplication hT _ _ h

theorem parameters (ls : List Lexeme) (as : List α) (h : Parameters A T ls as) : Enclosed ls := by
  cases h with
  | none => exact nil
  | some first others =>
    exact (expression hT _ _ first).append
      (many (after (expression hT) (fun _ => rfl) (by simp)) others)

theorem term (ls : List Lexeme) (a : α) (h : Term A T ls a) : Enclosed ls := by
  cases h with
  | negative c h => exact .cons rfl (by simp) (hT _ _ h)
  | name h => exact .cons rfl (by simp) nil
  | call c c' h _ => exact .cons rfl (by simp) ((parameters hT _ _ h).group c c')
  | numeral h => exact .cons rfl (by simp) nil
  | group c c' h => exact (expression hT _ _ h).group c c'

end Terms

/-- Terms of any depth are balanced, and there are no equals signs in them. -/
theorem termAt (depth : ℕ) (ls : List Lexeme) (a : α) (h : termAt A depth ls a) :
    Enclosed ls := by
  induction depth generalizing ls a with
  | zero => exact h.elim
  | succ depth ih => exact term ih ls a h

end Enclosed

/-- Equals signs stand outside of all parentheses. -/
def EqualsOutside (ls : List Lexeme) : Prop :=
  ∀ u c v, ls = u ++ .mark .equals c :: v → level u = 0

namespace EqualsOutside

variable {ls ls' : List Lexeme}

/-- A balanced front without equals signs changes nothing for the equals signs behind it. -/
theorem prepend (h : Enclosed ls) (h' : EqualsOutside ls') : EqualsOutside (ls ++ ls') := by
  intro u c v heq
  rcases List.append_eq_append_iff.1 heq with ⟨u', rfl, hls'⟩ | ⟨v', rfl, hv⟩
  · rw [level_append, h.balanced, h' u' c v hls', add_zero]
  · cases v' with
    | nil =>
      have hlevel := h.balanced
      rwa [List.append_nil] at hlevel
    | cons l v' =>
      obtain ⟨rfl, -⟩ := List.cons.inj hv
      exact absurd (List.mem_append_right u List.mem_cons_self) (h.noEquals c)

theorem equals (h : EqualsOutside ls) (c : Char) : EqualsOutside (.mark .equals c :: ls) := by
  intro u d v heq
  cases u with
  | nil => rfl
  | cons l u =>
    obtain ⟨rfl, htail⟩ := List.cons.inj heq
    rw [level_cons, h u d v htail]
    rfl

/-- The equals signs of a definition stand between its expressions, outside of all parentheses. -/
theorem definition (hT : ∀ ls a, T ls a → Enclosed ls) (ls : List Lexeme) (a : α)
    (h : Definition A T ls a) : EqualsOutside ls := by
  obtain ⟨first, values⟩ := h
  refine prepend (Enclosed.expression hT _ _ first) ?_
  induction values with
  | nil => simp [EqualsOutside]
  | cons head _ ih =>
    obtain ⟨c, h⟩ := head
    exact equals (prepend (Enclosed.expression hT _ _ h) ih) c

end EqualsOutside

/-! ## Slashes -/

section Slashes

variable {k k' : ℕ}

/-- After every slash stands a divisor. It ends where it is followed by the rest of the lexemes and
by whatever can follow a phrase of level `k`. -/
def Slashed (A : Actions α) (k : ℕ) (ls : List Lexeme) : Prop :=
  ∀ u c v, ls = u ++ .mark .slash c :: v → ∃ z w depth d, v = z ++ w ∧
    Divisor A (termAt A depth) z d ∧ ∀ rest, Ends k rest → Ends 5 (w ++ rest)

namespace Slashed

variable {ls ls' : List Lexeme}

theorem nil : Slashed A k [] := by simp [Slashed]

/-- Divisors of the first part still end where they did, as long as the second part may follow the
first. -/
theorem append (h : Slashed A k ls) (h' : Slashed A k' ls')
    (hends : ∀ rest, Ends k' rest → Ends k (ls' ++ rest)) : Slashed A k' (ls ++ ls') := by
  intro u c v heq
  rcases List.append_eq_append_iff.1 heq with ⟨u', rfl, hls'⟩ | ⟨v', rfl, hv⟩
  · exact h' u' c v hls'
  · cases v' with
    | nil => exact h' [] c v (by simpa using hv.symm)
    | cons l v' =>
      obtain ⟨rfl, rfl⟩ := List.cons.inj hv
      obtain ⟨z, w, depth, d, rfl, hd, hw⟩ := h u c v' rfl
      refine ⟨z, w ++ ls', depth, d, List.append_assoc _ _ _, hd, fun rest hrest => ?_⟩
      rw [List.append_assoc]
      exact hw _ (hends rest hrest)

theorem cons {l : Lexeme} (hl : ∀ c, l ≠ .mark .slash c) (h : Slashed A k ls) :
    Slashed A k (l :: ls) := by
  intro u c v heq
  cases u with
  | nil => exact absurd (List.cons.inj heq).1 (hl c)
  | cons l' u => exact h u c v (List.cons.inj heq).2

/-- A divisor after its slash. -/
theorem slash {depth : ℕ} {d : α} (hd : Divisor A (termAt A depth) ls d) (h : Slashed A 5 ls)
    (c : Char) : Slashed A 5 (.mark .slash c :: ls) := by
  intro u c' v heq
  cases u with
  | nil =>
    obtain ⟨-, rfl⟩ := List.cons.inj heq
    exact ⟨ls, [], depth, d, by simp, hd, fun rest hrest => hrest⟩
  | cons l u => exact h u c' v (List.cons.inj heq).2

theorem many (hQ : ∀ ls b, Q ls b → Slashed A k ls) (hsep : SeparatedBy k' k Q) (hk : k' ≤ k)
    {bs : List β} (h : Many Q ls bs) : Slashed A k' ls := by
  induction h with
  | nil => exact nil
  | cons head tail ih =>
    exact (hQ _ _ head).append ih fun rest hrest => hsep.ends hk tail hrest

/-- A phrase and a row of phrases after separators have their slashes in order if all of them
have. -/
theorem sequence {P : Phrase α} (hP : ∀ ls a, P ls a → Slashed A k ls)
    (hQ : ∀ ls b, Q ls b → Slashed A k ls) (hsep : SeparatedBy k' k Q) (hk : k' ≤ k) {a : α}
    {bs : List β} (h : P ls a) (h' : Many Q ls' bs) : Slashed A k' (ls ++ ls') :=
  (hP _ _ h).append (many hQ hsep hk h') fun _ hrest => hsep.ends hk h' hrest

theorem after {kind : LexemeKind} (hQ : ∀ ls b, Q ls b → Slashed A k ls) (hkind : kind ≠ .slash)
    (ls : List Lexeme) (b : β) (h : After kind Q ls b) : Slashed A k ls := by
  obtain ⟨c, h⟩ := h
  exact cons (by simp [hkind]) (hQ _ _ h)

theorem group (h : Slashed A (k + 1) ls) (c c' : Char) :
    Slashed A k' (.mark .opening c :: ls ++ [.mark .closing c']) :=
  append (cons (by simp) h) (cons (by simp) nil) fun rest _ => ends_closing c' rest

section Terms

variable {depth : ℕ} (hT : ∀ ls a, termAt A depth ls a → Slashed A 6 ls)

include hT

theorem power (ls : List Lexeme) (a : α) (h : Power A (termAt A depth) ls a) :
    Slashed A 5 ls := by
  obtain ⟨base, exponents⟩ := h
  exact sequence hT (after hT (by simp)) (separatedBy_after (fun _ => rfl) le_rfl (by omega))
    (by omega) base exponents

theorem division (ls : List Lexeme) (a : α) (h : Division A (termAt A depth) ls a) :
    Slashed A 4 ls := by
  obtain ⟨numerator, divisors⟩ := h
  have hdivisor : ∀ ls a, After .slash (Divisor A (termAt A depth)) ls a → Slashed A 5 ls := by
    rintro ls a ⟨c, h⟩
    exact slash h (power hT _ _ h.1) c
  have hsep : SeparatedBy 4 5 (After .slash (Divisor A (termAt A depth))) :=
    separatedBy_after (fun _ => rfl) le_rfl (Nat.lt_succ_self 4)
  exact sequence (power hT) hdivisor hsep (by omega) numerator divisors

theorem multiplication {negative : Bool} (ls : List Lexeme) (a : α)
    (h : Multiplication A (termAt A depth) negative ls a) : Slashed A 3 ls := by
  obtain ⟨first, factors⟩ := h
  exact sequence (division hT) (after (division hT) (by simp))
    (separatedBy_after (fun _ => rfl) le_rfl (by omega)) (by omega) first factors

theorem signed (ls : List Lexeme) (a : α) (h : Signed A (termAt A depth) ls a) :
    Slashed A 3 ls := by
  cases h with
  | plus h => exact after (multiplication hT) (by simp) _ _ h
  | minus h => exact after (multiplication hT) (by simp) _ _ h

theorem expression (ls : List Lexeme) (a : α) (h : Expression A (termAt A depth) ls a) :
    Slashed A 2 ls := by
  have hleading : ∀ ls a, Leading A (termAt A depth) ls a → Slashed A 3 ls := fun ls a h => by
    cases h with
    | signed h => exact signed hT _ _ h
    | unsigned h _ => exact multiplication hT _ _ h
  obtain ⟨first, terms⟩ := h
  exact sequence hleading (signed hT) separatedBy_signed (by omega) first terms

theorem parameters (ls : List Lexeme) (as : List α) (h : Parameters A (termAt A depth) ls as) :
    Slashed A 1 ls := by
  cases h with
  | none => exact nil
  | some first others =>
    exact sequence (expression hT) (after (expression hT) (by simp))
      (separatedBy_after (fun _ => rfl) le_rfl (by omega)) (by omega) first others

theorem term (ls : List Lexeme) (a : α) (h : Term A (Grammar.termAt A depth) ls a) :
    Slashed A 6 ls := by
  cases h with
  | negative c h => exact cons (by simp) (hT _ _ h)
  | name h => exact cons (by simp) nil
  | call c c' h _ => exact cons (by simp) ((parameters hT _ _ h).group c c')
  | numeral h => exact cons (by simp) nil
  | group c c' h => exact (expression hT _ _ h).group c c'

end Terms

/-- Behind every slash of a term is a divisor, however deep the term nests. -/
theorem termAt (depth : ℕ) (ls : List Lexeme) (a : α) (h : termAt A depth ls a) :
    Slashed A 6 ls := by
  induction depth generalizing ls a with
  | zero => exact h.elim
  | succ depth ih => exact term ih ls a h

/-- Behind every slash of a definition is a divisor. -/
theorem definition {depth : ℕ} {a : α} (h : Definition A (Grammar.termAt A depth) ls a) :
    Slashed A 1 ls := by
  obtain ⟨first, values⟩ := h
  exact sequence (expression (termAt depth)) (after (expression (termAt depth)) (by simp))
    (separatedBy_after (fun _ => rfl) le_rfl (by omega)) (by omega) first values

end Slashed

/-- What stands after a slash can be divided by. -/
theorem divisor_of_definition (hA : A.Functional) {depth depth' : ℕ} {u z v : List Lexeme}
    {c : Char} {a d : α} (h : Definition A (termAt A depth) (u ++ .mark .slash c :: (z ++ v)) a)
    (hd : Power A (termAt A depth') z d) (hv : Ends 5 v) : A.divisor d := by
  obtain ⟨z', w, depth'', d', heq, hd', hw⟩ := Slashed.definition h u c (z ++ v) rfl
  have hends : Ends 5 w := by simpa using hw [] (by simp [Ends])
  have hz := hd.mono (termAt_mono (Nat.le_max_left depth' depth''))
  have hz' := hd'.1.mono (termAt_mono (Nat.le_max_right depth' depth''))
  have hpower : Determined 5 (Power A (termAt A (max depth' depth''))) :=
    (determined_termAt hA _).power
  obtain ⟨-, rfl⟩ := hpower.unique _ _ _ _ _ _ hz hz' heq hv hends
  exact hd'.2

end Slashes

end Grammar

end Reckoner
