import Reckoner.Proofs.Grammar.Marks
import Reckoner.Proofs.Grammar.Splitting

/-!
# Parentheses and ends of texts

How many parentheses are open at a place in a text can be counted in its characters as well as in
its lexemes, and the count of characters adds up wherever the text is cut. Texts that can follow a
divisor are told by the lexeme that they start with.
-/

namespace Reckoner

open Grammar

/-! ## Parentheses -/

/-- How a character changes the number of open parentheses. -/
def charLevel (c : Char) : ℤ := if c = '(' then 1 else if c = ')' then -1 else 0

/-- How many more parentheses open than close in a text. -/
def textLevel (t : String) : ℤ := (t.toList.map charLevel).sum

@[simp] theorem textLevel_append (t u : String) :
    textLevel (t ++ u) = textLevel t + textLevel u := by simp [textLevel]

theorem sum_charLevel_eq_zero {cs : List Char} (h : ∀ c ∈ cs, charLevel c = 0) :
    (cs.map charLevel).sum = 0 := by
  induction cs with
  | nil => rfl
  | cons c cs ih => simp [h c (by simp), ih fun d hd => h d (by simp [hd])]

/-- The characters of a kind that the parentheses do not have are not parentheses. -/
theorem charLevel_eq_zero {c : Char} {p : Char → Bool} (h : p c = true) (hopen : p '(' = false)
    (hclose : p ')' = false) : charLevel c = 0 := by
  have hne : c ≠ '(' ∧ c ≠ ')' := by
    constructor
    · rintro rfl
      simp [hopen] at h
    · rintro rfl
      simp [hclose] at h
  simp [charLevel, hne]

theorem charLevel_of_isNameChar {c : Char} (h : isNameChar c = true) : charLevel c = 0 :=
  charLevel_eq_zero h rfl rfl

theorem charLevel_of_isDigit {c : Char} (h : c.isDigit = true) : charLevel c = 0 :=
  charLevel_eq_zero h rfl rfl

/-- A mark counts as its lexeme does. -/
theorem charLevel_of_isMark {k : LexemeKind} {c : Char} (h : k.IsMark c) :
    charLevel c = (Lexeme.mark k c).level := by
  by_cases hopen : k = .opening
  · subst hopen
    obtain rfl : c = '(' := h.eq (by decide)
    rfl
  by_cases hclose : k = .closing
  · subst hclose
    obtain rfl : c = ')' := h.eq (by decide)
    rfl
  have hother : charLevel c = 0 := by
    refine charLevel_eq_zero (p := fun d => LexemeKind.ofChar? d == some k) (by simp [h.1]) ?_ ?_
    · exact beq_eq_false_iff_ne.2 fun h => hopen (Option.some.inj h).symm
    · exact beq_eq_false_iff_ne.2 fun h => hclose (Option.some.inj h).symm
  cases k <;> first | exact hother | contradiction

/-- However a text is split, its lexemes have the level of its characters. -/
theorem level_of_splits {cs : List Char} {ls : List Lexeme} (h : Splits cs ls) :
    level ls = (cs.map charLevel).sum := by
  induction h with
  | nil => rfl
  | blank hc _ ih => simp [ih, charLevel_eq_zero hc rfl rfl]
  | @name c cs rest ls hc hcs _ _ ih =>
    have hname : isNameChar c = true := by simp [isNameChar, hc]
    have hrun := sum_charLevel_eq_zero fun d hd => charLevel_of_isNameChar (hcs d hd)
    simp [ih, hrun, charLevel_of_isNameChar hname, Lexeme.level]
  | integer hcs _ _ ih =>
    have hrun := sum_charLevel_eq_zero fun d hd => charLevel_of_isDigit (hcs d hd)
    rw [List.map_append, List.sum_append, hrun, ← ih, level_cons]
    rfl
  | decimal hcs hfs _ _ ih =>
    have hrun := sum_charLevel_eq_zero fun d hd => charLevel_of_isDigit (hcs d hd)
    have hfraction := sum_charLevel_eq_zero fun d hd => charLevel_of_isDigit (hfs d hd)
    have hpoint : charLevel '.' = 0 := rfl
    rw [List.map_append, List.sum_append, hrun, List.map_cons, List.sum_cons, hpoint,
      List.map_append, List.sum_append, hfraction, ← ih, level_cons]
    simp [Lexeme.level]
  | mark hk _ ih => simp [ih, charLevel_of_isMark hk]
  | @stray c cs ls _ hc _ ih =>
    have hstray : charLevel c = 0 :=
      charLevel_eq_zero (p := fun d => (LexemeKind.ofChar? d).isNone) (by simp [hc]) rfl rfl
    simp [ih, hstray, Lexeme.level]

/-- The level of a text is that of its lexemes. -/
theorem level_lexemes (t : String) : level (lexemes t.toList) = textLevel t :=
  level_of_splits (splits_lexemes t.toList)

/-! ## Ends of divisors -/

/-- A divisor ends where the text follows it. -/
structure EndsDivisor (t : String) : Prop where
  stands : Stands t.toList
  ends : Ends 5 (lexemes t.toList)

theorem endsDivisor_empty : EndsDivisor "" := ⟨by simp, by simp [Ends]⟩

theorem endsDivisor_of_toList {k : LexemeKind} {c : Char} {t : String} {cs : List Char}
    (ht : t.toList = c :: cs) (hk : k.IsMark c) (hstrength : (Lexeme.mark k c).strength < 5) :
    EndsDivisor t where
  stands := by
    rw [ht]
    exact hk.stands cs
  ends := by
    rw [ht, hk.lexemes]
    exact ends_cons.2 hstrength

/-- A divisor ends at every mark that binds less than a slash does. -/
theorem endsDivisor_mark {k : LexemeKind} {c : Char} {m : String} (hm : m.toList = [c])
    (hk : k.IsMark c) (hstrength : (Lexeme.mark k c).strength < 5) (t : String) :
    EndsDivisor (m ++ t) := by
  have htoList : (m ++ t).toList = c :: t.toList := by simp [hm]
  exact endsDivisor_of_toList htoList hk hstrength

theorem EndsDivisor.append_of_ne_nil {t u : String} (ht : EndsDivisor t)
    (hne : lexemes t.toList ≠ []) (hu : Stands u.toList) : EndsDivisor (t ++ u) where
  stands := by
    rw [String.toList_append]
    exact ht.stands.append hu
  ends := by
    obtain ⟨l, ls, hls⟩ := List.exists_cons_of_ne_nil hne
    have hl := ht.ends
    rw [hls] at hl
    rw [String.toList_append, lexemes_append hu, hls]
    exact ends_cons.2 (ends_cons.1 hl)

/-- If a divisor ends at each of two texts, it ends at the two in a row. -/
theorem EndsDivisor.append {t u : String} (ht : EndsDivisor t) (hu : EndsDivisor u) :
    EndsDivisor (t ++ u) := by
  by_cases hne : lexemes t.toList = []
  · refine ⟨?_, ?_⟩
    · rw [String.toList_append]
      exact ht.stands.append hu.stands
    · rw [String.toList_append, lexemes_append hu.stands, hne]
      exact hu.ends
  · exact ht.append_of_ne_nil hne hu.stands

end Reckoner
