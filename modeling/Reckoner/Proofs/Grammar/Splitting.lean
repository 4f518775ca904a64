import Reckoner.Proofs.Grammar.Lexing

/-!
# How a text is split

`Splits` says what the lexemes of a text are without saying how to find them: blanks are dropped,
names are letters and digits for as long as there are any, and numerals are digits with at most one
point among them. Every text is split in exactly one way, and that is the way of `lexemes`.
-/

namespace Reckoner

/-- The text does not go on with a character that has the property. -/
def StopsAt (p : Char → Bool) (cs : List Char) : Prop := ∀ c ∈ cs.head?, p c = false

/-- The lexemes that a text is split into. -/
inductive Splits : List Char → List Lexeme → Prop where
  | nil : Splits [] []
  /-- Blanks are dropped. -/
  | blank {c cs ls} (hc : isSpace c = true) (more : Splits cs ls) : Splits (c :: cs) ls
  /-- A name goes on for as long as there are letters and digits. -/
  | name {c cs rest ls} (hc : c.isAlpha = true) (hcs : ∀ d ∈ cs, isNameChar d = true)
      (hstop : StopsAt isNameChar rest) (more : Splits rest ls) :
      Splits (c :: cs ++ rest) (.name (c :: cs) :: ls)
  /-- A run of digits with no point after it. -/
  | integer {c cs rest ls} (hcs : ∀ d ∈ c :: cs, d.isDigit = true)
      (hstop : StopsAt (fun d => d.isDigit || d == '.') rest) (more : Splits rest ls) :
      Splits (c :: cs ++ rest) (.numeral (c :: cs) none :: ls)
  /-- A run of digits, a point, and a run of digits that may be empty. -/
  | decimal {c cs fs rest ls} (hcs : ∀ d ∈ c :: cs, d.isDigit = true)
      (hfs : ∀ d ∈ fs, d.isDigit = true) (hstop : StopsAt Char.isDigit rest)
      (more : Splits rest ls) :
      Splits (c :: cs ++ '.' :: (fs ++ rest)) (.numeral (c :: cs) (some fs) :: ls)
  /-- A mark stands for itself. -/
  | mark {k c cs ls} (hk : k.IsMark c) (more : Splits cs ls) : Splits (c :: cs) (.mark k c :: ls)
  /-- Any other character stands for itself as well, but no phrase has a place for it. -/
  | stray {c cs ls} (hspace : isSpace c = false) (hc : LexemeKind.ofChar? c = none)
      (more : Splits cs ls) : Splits (c :: cs) (.stray c :: ls)

/-! ## Runs of characters -/

section Runs

variable {p : Char → Bool} {cs rest : List Char}

theorem takeWhile_append_of_stopsAt (hcs : ∀ c ∈ cs, p c = true) (h : StopsAt p rest) :
    (cs ++ rest).takeWhile p = cs := by
  have hnil : rest.takeWhile p = [] := by
    cases rest with
    | nil => rfl
    | cons d rest =>
      have hd : p d = false := h d (by simp)
      simp [hd]
  rw [List.takeWhile_append_of_pos hcs, hnil, List.append_nil]

theorem dropWhile_append_of_stopsAt (hcs : ∀ c ∈ cs, p c = true) (h : StopsAt p rest) :
    (cs ++ rest).dropWhile p = rest := by
  have hsplit := List.takeWhile_append_dropWhile (p := p) (l := cs ++ rest)
  rw [takeWhile_append_of_stopsAt hcs h] at hsplit
  exact List.append_cancel_left hsplit

theorem stopsAt_dropWhile (p : Char → Bool) (cs : List Char) : StopsAt p (cs.dropWhile p) := by
  intro c hc
  have hhead := List.head?_dropWhile_not p cs
  rw [Option.mem_def.1 hc] at hhead
  exact hhead

end Runs

/-! ## The first lexeme -/

/-- Letters and digits up to the first other character are a name. -/
theorem lexemes_name_append {c : Char} {cs rest : List Char} (hc : c.isAlpha = true)
    (hcs : ∀ d ∈ cs, isNameChar d = true) (hstop : StopsAt isNameChar rest) :
    lexemes (c :: cs ++ rest) = .name (c :: cs) :: lexemes rest := by
  have hkind := LexemeKind.ofChar?_eq_letter.2 hc
  have hlexeme : Lexeme.ofChars c (cs ++ rest) = .name (c :: cs) := by
    unfold Lexeme.ofChars
    rw [hkind]
    simp only [takeWhile_append_of_stopsAt hcs hstop]
  rw [List.cons_append, lexemes_cons (LexemeKind.isSpace_eq_false_of_ofChar? hkind), hlexeme]
  simp [Lexeme.chars]

/-- The first lexeme of a text that starts with a run of digits. -/
theorem ofChars_digits {c : Char} {cs rest : List Char} (hcs : ∀ d ∈ c :: cs, d.isDigit = true)
    (hstop : StopsAt Char.isDigit rest) :
    Lexeme.ofChars c (cs ++ rest) = .numeralBefore (c :: cs) rest := by
  have hrun : ∀ d ∈ cs, d.isDigit = true := fun d hd => hcs d (by simp [hd])
  unfold Lexeme.ofChars
  rw [LexemeKind.ofChar?_of_isDigit (hcs c (by simp))]
  simp only [takeWhile_append_of_stopsAt hrun hstop, dropWhile_append_of_stopsAt hrun hstop]

/-- Digits up to the first character that is neither digit nor point are a whole numeral. -/
theorem lexemes_integer_append {c : Char} {cs rest : List Char}
    (hcs : ∀ d ∈ c :: cs, d.isDigit = true)
    (hstop : StopsAt (fun d => d.isDigit || d == '.') rest) :
    lexemes (c :: cs ++ rest) = .numeral (c :: cs) none :: lexemes rest := by
  have hkind := LexemeKind.ofChar?_of_isDigit (hcs c (by simp))
  have hlexeme : Lexeme.ofChars c (cs ++ rest) = .numeral (c :: cs) none := by
    have hdigit : StopsAt Char.isDigit rest := fun d hd =>
      (Bool.or_eq_false_iff.1 (hstop d hd)).1
    rw [ofChars_digits hcs hdigit]
    cases rest with
    | nil => rfl
    | cons d rest =>
      have hpoint := (Bool.or_eq_false_iff.1 (hstop d (by simp))).2
      rw [beq_eq_false_iff_ne] at hpoint
      unfold Lexeme.numeralBefore
      split
      · next heq => exact absurd (List.cons.inj heq).1 hpoint
      · rfl
  rw [List.cons_append, lexemes_cons (LexemeKind.isSpace_eq_false_of_ofChar? hkind), hlexeme]
  simp [Lexeme.chars]

/-- Digits, a point and the digits behind it are one numeral, and a second point is not part of
it. -/
theorem lexemes_decimal_append {c : Char} {cs fs rest : List Char}
    (hcs : ∀ d ∈ c :: cs, d.isDigit = true) (hfs : ∀ d ∈ fs, d.isDigit = true)
    (hstop : StopsAt Char.isDigit rest) :
    lexemes (c :: cs ++ '.' :: (fs ++ rest)) = .numeral (c :: cs) (some fs) :: lexemes rest := by
  have hkind := LexemeKind.ofChar?_of_isDigit (hcs c (by simp))
  have hlexeme : Lexeme.ofChars c (cs ++ '.' :: (fs ++ rest)) = .numeral (c :: cs) (some fs) := by
    have hpoint : StopsAt Char.isDigit ('.' :: (fs ++ rest)) := by
      intro d hd
      obtain rfl : '.' = d := by simpa using hd
      rfl
    rw [ofChars_digits hcs hpoint]
    simp only [Lexeme.numeralBefore, takeWhile_append_of_stopsAt hfs hstop]
  rw [List.cons_append, lexemes_cons (LexemeKind.isSpace_eq_false_of_ofChar? hkind), hlexeme]
  have hall : cs ++ '.' :: (fs ++ rest) = (cs ++ '.' :: fs) ++ rest := by simp
  rw [hall, List.drop_left' (by simp [Lexeme.chars])]

theorem lexemes_stray {c : Char} {cs : List Char} (hspace : isSpace c = false)
    (hc : LexemeKind.ofChar? c = none) : lexemes (c :: cs) = .stray c :: lexemes cs := by
  have hlexeme : Lexeme.ofChars c cs = .stray c := by
    unfold Lexeme.ofChars
    rw [hc]
  rw [lexemes_cons hspace, hlexeme]
  rfl

/-! ## All lexemes -/

/-- A splitting is the one that the reader finds. -/
theorem lexemes_of_splits {cs : List Char} {ls : List Lexeme} (h : Splits cs ls) :
    lexemes cs = ls := by
  induction h with
  | nil => exact lexemes_nil
  | blank hc _ ih => rw [lexemes_blank hc, ih]
  | name hc hcs hstop _ ih => rw [lexemes_name_append hc hcs hstop, ih]
  | integer hcs hstop _ ih => rw [lexemes_integer_append hcs hstop, ih]
  | decimal hcs hfs hstop _ ih => rw [lexemes_decimal_append hcs hfs hstop, ih]
  | mark hk _ ih => rw [hk.lexemes, ih]
  | stray hspace hc _ ih => rw [lexemes_stray hspace hc, ih]

/-- A name at the start of a text, and what is left of the text. -/
theorem splits_of_isAlpha {c : Char} {cs : List Char} (hc : c.isAlpha = true)
    (ih : ∀ rest : List Char, rest.length ≤ cs.length → Splits rest (lexemes rest)) :
    Splits (c :: cs) (lexemes (c :: cs)) := by
  have hsplit := List.takeWhile_append_dropWhile (p := isNameChar) (l := cs)
  have hstop := stopsAt_dropWhile isNameChar cs
  have hrun : ∀ d ∈ cs.takeWhile isNameChar, isNameChar d = true := fun d hd =>
    List.mem_takeWhile_imp hd
  have hall : c :: cs.takeWhile isNameChar ++ cs.dropWhile isNameChar = c :: cs := by
    rw [List.cons_append, hsplit]
  have hlen := congrArg List.length hsplit
  rw [List.length_append] at hlen
  rw [← hall, lexemes_name_append hc hrun hstop]
  exact .name hc hrun hstop (ih _ (by omega))

/-- A numeral at the start of a text, and what is left of the text. -/
theorem splits_of_isDigit {c : Char} {cs : List Char} (hc : c.isDigit = true)
    (ih : ∀ rest : List Char, rest.length ≤ cs.length → Splits rest (lexemes rest)) :
    Splits (c :: cs) (lexemes (c :: cs)) := by
  have hstop := stopsAt_dropWhile Char.isDigit cs
  have hsplit := List.takeWhile_append_dropWhile (p := Char.isDigit) (l := cs)
  have hrun : ∀ d ∈ c :: cs.takeWhile Char.isDigit, d.isDigit = true := by
    intro d hd
    rcases List.mem_cons.1 hd with rfl | hd
    · exact hc
    · exact List.mem_takeWhile_imp hd
  have hlen := congrArg List.length hsplit
  rw [List.length_append] at hlen
  -- a point behind the digits belongs to the numeral, and so do the digits behind the point
  by_cases hpoint : (cs.dropWhile Char.isDigit).head? = some '.'
  · obtain ⟨ds, hds⟩ := List.head?_eq_some_iff.1 hpoint
    have hstop' := stopsAt_dropWhile Char.isDigit ds
    have hsplit' := List.takeWhile_append_dropWhile (p := Char.isDigit) (l := ds)
    have hfs : ∀ d ∈ ds.takeWhile Char.isDigit, d.isDigit = true := fun d hd =>
      List.mem_takeWhile_imp hd
    have hall : c :: cs.takeWhile Char.isDigit ++
        '.' :: (ds.takeWhile Char.isDigit ++ ds.dropWhile Char.isDigit) = c :: cs := by
      rw [hsplit', ← hds, List.cons_append, hsplit]
    have hlen' := congrArg List.length hsplit'
    rw [List.length_append] at hlen'
    rw [hds, List.length_cons] at hlen
    rw [← hall, lexemes_decimal_append hrun hfs hstop']
    exact .decimal hrun hfs hstop' (ih _ (by omega))
  · have hstop' : StopsAt (fun d => d.isDigit || d == '.') (cs.dropWhile Char.isDigit) := by
      intro d hd
      rw [Bool.or_eq_false_iff, beq_eq_false_iff_ne]
      refine ⟨hstop d hd, ?_⟩
      rintro rfl
      exact hpoint hd
    have hall : c :: cs.takeWhile Char.isDigit ++ cs.dropWhile Char.isDigit = c :: cs := by
      rw [List.cons_append, hsplit]
    rw [← hall, lexemes_integer_append hrun hstop']
    exact .integer hrun hstop' (ih _ (by omega))

/-- What the reader finds is a splitting. -/
theorem splits_lexemes (cs : List Char) : Splits cs (lexemes cs) := by
  induction hlen : cs.length using Nat.strongRecOn generalizing cs with
  | ind n ih =>
    cases cs with
    | nil =>
      rw [lexemes_nil]
      exact .nil
    | cons c cs =>
      rw [List.length_cons] at hlen
      have hmore : ∀ rest : List Char, rest.length ≤ cs.length → Splits rest (lexemes rest) :=
        fun rest hrest => ih rest.length (by omega) rest rfl
      -- the first character tells which lexeme comes first
      by_cases hspace : isSpace c = true
      · rw [lexemes_blank hspace]
        exact .blank hspace (hmore cs le_rfl)
      rw [Bool.not_eq_true] at hspace
      by_cases halpha : c.isAlpha = true
      · exact splits_of_isAlpha halpha hmore
      by_cases hdigit : c.isDigit = true
      · exact splits_of_isDigit hdigit hmore
      cases hkind : LexemeKind.ofChar? c with
      | none =>
        rw [lexemes_stray hspace hkind]
        exact .stray hspace hkind (hmore cs le_rfl)
      | some k =>
        have hk : k.IsMark c := by
          refine ⟨hkind, ?_, ?_⟩
          · rintro rfl
            exact halpha (LexemeKind.ofChar?_eq_letter.1 hkind)
          · rintro rfl
            exact hdigit (LexemeKind.isDigit_of_ofChar? hkind)
        rw [hk.lexemes]
        exact .mark hk (hmore cs le_rfl)

/-- A text is split in exactly one way. -/
theorem splits_iff {cs : List Char} {ls : List Lexeme} : Splits cs ls ↔ ls = lexemes cs := by
  constructor
  · intro h
    exact (lexemes_of_splits h).symm
  · rintro rfl
    exact splits_lexemes cs

end Reckoner
