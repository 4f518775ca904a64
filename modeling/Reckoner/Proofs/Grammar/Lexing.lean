import Reckoner.Grammar.Reader
import Mathlib.Data.List.TakeWhile

/-!
# The lexemes of a text

Where a lexeme ends depends on what follows it: names and numerals run on. A text that starts with a
mark can be appended to any other text, though, and the lexemes are then those of the one text and
those of the other. With numerals and names as the texts to begin with, that is all there is to know
about the text of an expression.
-/

namespace Reckoner

/-- The lexemes of a text, without their positions. -/
def lexemes (cs : List Char) : List Lexeme := (tokens cs).map Token.lexeme

/-! ## One lexeme after the other -/

theorem length_chars_ofChars (c : Char) (cs : List Char) :
    (Lexeme.ofChars c cs).chars.length - 1 ≤ cs.length := by
  unfold Lexeme.ofChars
  split
  · simp [Lexeme.chars]
  · simpa [Lexeme.chars] using (List.takeWhile_prefix (p := isNameChar)).length_le
  · have hsplit := congrArg List.length
      (List.takeWhile_append_dropWhile (p := Char.isDigit) (l := cs))
    rw [List.length_append] at hsplit
    unfold Lexeme.numeralBefore
    split
    · next rest heq =>
      have hrest := (List.takeWhile_prefix (p := Char.isDigit) (l := rest)).length_le
      rw [heq, List.length_cons] at hsplit
      simp only [Lexeme.chars, List.cons_append, List.length_cons, List.length_append]
      omega
    · simp only [Lexeme.chars, List.length_cons]
      omega
  · simp [Lexeme.chars]

/-- Induction along the lexemes of a text: it starts with a blank, or a lexeme stands in front. -/
@[elab_as_elim]
theorem lexeme_induction {motive : List Char → Prop} (nil : motive [])
    (blank : ∀ c cs, isSpace c = true → motive cs → motive (c :: cs))
    (lexeme : ∀ c cs, isSpace c = false →
      motive (cs.drop ((Lexeme.ofChars c cs).chars.length - 1)) → motive (c :: cs))
    (cs : List Char) : motive cs := by
  induction (0 : Nat), cs using tokensFrom.induct with
  | case1 => exact nil
  | case2 _ c cs hspace ih => exact blank c cs hspace ih
  | case3 _ c cs hspace _ _ ih => exact lexeme c cs (by simpa using hspace) ih

/-- Where a text begins does not matter for its lexemes. -/
theorem map_lexeme_tokensFrom (p : Nat) (cs : List Char) :
    (tokensFrom p cs).map Token.lexeme = lexemes cs := by
  show (tokensFrom p cs).map Token.lexeme = (tokensFrom 0 cs).map Token.lexeme
  generalize 0 = q
  induction cs using lexeme_induction generalizing p q with
  | nil => rw [tokensFrom, tokensFrom]
  | blank c cs hspace ih =>
    rw [tokensFrom, tokensFrom, if_pos hspace, if_pos hspace]
    exact ih _ _
  | lexeme c cs hspace ih =>
    rw [tokensFrom, tokensFrom, if_neg (by simp [hspace]), if_neg (by simp [hspace])]
    simp only [List.map_cons]
    exact congrArg _ (ih _ _)

@[simp] theorem lexemes_nil : lexemes [] = [] := by simp [lexemes, tokens, tokensFrom]

theorem lexemes_blank {c : Char} (h : isSpace c = true) (cs : List Char) :
    lexemes (c :: cs) = lexemes cs := by
  unfold lexemes tokens
  rw [tokensFrom, if_pos h]
  exact map_lexeme_tokensFrom _ _

/-- The first lexeme, and then those of what it leaves. -/
theorem lexemes_cons {c : Char} (h : isSpace c = false) (cs : List Char) :
    lexemes (c :: cs) = Lexeme.ofChars c cs ::
      lexemes (cs.drop ((Lexeme.ofChars c cs).chars.length - 1)) := by
  show (tokensFrom 0 (c :: cs)).map Token.lexeme = _
  rw [tokensFrom, if_neg (by simp [h]), List.map_cons, map_lexeme_tokensFrom]

/-! ## Texts in a row -/

/-- The text continues neither a name nor a numeral. -/
def Stands (cs : List Char) : Prop := ∀ c ∈ cs.head?, isNameChar c = false ∧ c ≠ '.'

@[simp] theorem stands_nil : Stands [] := by simp [Stands]

theorem stands_cons {c : Char} {cs : List Char} :
    Stands (c :: cs) ↔ isNameChar c = false ∧ c ≠ '.' := by simp [Stands]

instance : DecidablePred Stands
  | [] => .isTrue stands_nil
  | c :: _ => decidable_of_iff (isNameChar c = false ∧ c ≠ '.') stands_cons.symm

theorem Stands.append {cs ds : List Char} (h : Stands cs) (h' : Stands ds) : Stands (cs ++ ds) := by
  cases cs with
  | nil => exact h'
  | cons c cs => exact h

/-- A run of name characters does not go on into a text that starts with something else. -/
theorem takeWhile_append_of_stands {p : Char → Bool} (hp : ∀ c, p c = true → isNameChar c = true)
    {cs ds : List Char} (h : Stands ds) : (cs ++ ds).takeWhile p = cs.takeWhile p := by
  induction cs with
  | nil =>
    cases ds with
    | nil => rfl
    | cons d ds =>
      have hd : p d = false := by
        by_contra hd
        have hname := hp d (by simpa using hd)
        rw [(stands_cons.1 h).1] at hname
        cases hname
      simp [hd]
  | cons c cs ih => simp only [List.cons_append, List.takeWhile_cons, ih]

theorem isNameChar_of_isDigit {c : Char} (h : c.isDigit = true) : isNameChar c = true := by
  simp [isNameChar, h]

/-- What follows a lexeme does not change it if it stands by itself. -/
theorem ofChars_append {c : Char} {cs ds : List Char} (h : Stands ds) :
    Lexeme.ofChars c (cs ++ ds) = Lexeme.ofChars c cs := by
  unfold Lexeme.ofChars
  rw [takeWhile_append_of_stands (fun _ hc => hc) h,
    takeWhile_append_of_stands (fun _ hc => isNameChar_of_isDigit hc) h]
  split
  · rfl
  · rfl
  · have hsplit := List.takeWhile_append_dropWhile (p := Char.isDigit) (l := cs)
    have hboth := List.takeWhile_append_dropWhile (p := Char.isDigit) (l := cs ++ ds)
    rw [takeWhile_append_of_stands (fun _ hc => isNameChar_of_isDigit hc) h] at hboth
    have hdrop : (cs ++ ds).dropWhile Char.isDigit = cs.dropWhile Char.isDigit ++ ds := by
      refine List.append_cancel_left (hboth.trans ?_)
      rw [← List.append_assoc, hsplit]
    rw [hdrop]
    cases hcs : cs.dropWhile Char.isDigit with
    | nil =>
      cases ds with
      | nil => rfl
      | cons d ds =>
        have hd := (stands_cons.1 h).2
        simp [Lexeme.numeralBefore, hd]
    | cons d rest =>
      by_cases hd : d = '.'
      · subst hd
        simp only [List.cons_append, Lexeme.numeralBefore]
        rw [takeWhile_append_of_stands (fun _ hc => isNameChar_of_isDigit hc) h]
      · simp [Lexeme.numeralBefore, hd]
  · rfl

/-- The lexemes of two texts in a row, where the second one does not continue the first. -/
theorem lexemes_append {ds : List Char} (h : Stands ds) (cs : List Char) :
    lexemes (cs ++ ds) = lexemes cs ++ lexemes ds := by
  induction cs using lexeme_induction with
  | nil => simp
  | blank c cs hspace ih =>
    rw [List.cons_append, lexemes_blank hspace, lexemes_blank hspace]
    exact ih
  | lexeme c cs hspace ih =>
    rw [List.cons_append, lexemes_cons hspace, lexemes_cons hspace, ofChars_append h,
      List.drop_append_of_le_length (length_chars_ofChars c cs), List.cons_append]
    exact congrArg _ ih

/-! ## Marks -/

theorem LexemeKind.isSpace_eq_false_of_ofChar? {k : LexemeKind} {c : Char}
    (h : LexemeKind.ofChar? c = some k) : isSpace c = false := by
  by_contra hc
  simp only [isSpace, Bool.not_eq_false, Bool.or_eq_true, beq_iff_eq] at hc
  rcases hc with ((rfl | rfl) | rfl) | rfl <;> cases h

/-- The character is a lexeme of the kind by itself. -/
def LexemeKind.IsMark (k : LexemeKind) (c : Char) : Prop :=
  LexemeKind.ofChar? c = some k ∧ k ≠ .letter ∧ k ≠ .digit

instance (k : LexemeKind) (c : Char) : Decidable (k.IsMark c) :=
  inferInstanceAs (Decidable (_ ∧ _ ∧ _))

namespace LexemeKind.IsMark

variable {k : LexemeKind} {c : Char}

theorem isSpace_eq_false (h : k.IsMark c) : isSpace c = false :=
  LexemeKind.isSpace_eq_false_of_ofChar? h.1

theorem stands (h : k.IsMark c) (cs : List Char) : Stands (c :: cs) := by
  obtain ⟨hkind, hletter, hdigit⟩ := h
  refine stands_cons.2 ⟨?_, ?_⟩
  · by_contra hname
    simp only [isNameChar, Bool.not_eq_false, Bool.or_eq_true] at hname
    unfold LexemeKind.ofChar? at hkind
    split_ifs at hkind with ha hd
    · exact hletter (Option.some.inj hkind).symm
    · exact hdigit (Option.some.inj hkind).symm
    · exact hname.elim ha hd
  · rintro rfl
    cases hkind

theorem ofChars (h : k.IsMark c) (cs : List Char) : Lexeme.ofChars c cs = .mark k c := by
  obtain ⟨hkind, hletter, hdigit⟩ := h
  unfold Lexeme.ofChars
  rw [hkind]
  cases k <;> first | rfl | contradiction

/-- A mark is a lexeme of its own, whatever follows it. -/
theorem lexemes (h : k.IsMark c) (cs : List Char) :
    lexemes (c :: cs) = .mark k c :: Reckoner.lexemes cs := by
  rw [lexemes_cons h.isSpace_eq_false, h.ofChars]
  rfl

/-- There is one mark of a kind. -/
theorem eq {d : Char} (h : k.IsMark c) (h' : k.IsMark d) : c = d := by
  obtain ⟨hc, hletter, hdigit⟩ := h
  obtain ⟨hd, -, -⟩ := h'
  unfold LexemeKind.ofChar? at hc hd
  -- letters and digits are of other kinds
  split_ifs at hc hd
  all_goals first
    | (cases hc; contradiction)
    | (cases hd; contradiction)
    | skip
  split at hc <;> cases hc <;> split at hd <;> first | rfl | cases hd

end LexemeKind.IsMark

/-! ## Numerals and names -/

theorem LexemeKind.ofChar?_eq_letter {c : Char} :
    LexemeKind.ofChar? c = some .letter ↔ c.isAlpha = true := by
  unfold LexemeKind.ofChar?
  split_ifs with ha hd
  · simp [ha]
  · simp [ha]
  · simp only [ha, Bool.false_eq_true, iff_false]
    split <;> simp

theorem LexemeKind.isDigit_of_ofChar? {c : Char} (h : LexemeKind.ofChar? c = some .digit) :
    c.isDigit = true := by
  unfold LexemeKind.ofChar? at h
  split_ifs at h with ha hd
  · cases h
  · exact hd
  · split at h <;> cases h

theorem LexemeKind.ofChar?_of_isDigit {c : Char} (h : c.isDigit = true) :
    LexemeKind.ofChar? c = some .digit := by
  have hle : c.val.toNat ≤ 57 := by
    simp only [Char.isDigit, Bool.and_eq_true, decide_eq_true_eq, UInt32.le_iff_toNat_le,
      ge_iff_le] at h
    exact h.2
  have hupper : c.isUpper = false := by
    refine decide_eq_false fun hupper => ?_
    have hge : 65 ≤ c.val.toNat := UInt32.le_iff_toNat_le.1 hupper.1
    omega
  have hlower : c.isLower = false := by
    refine Bool.and_eq_false_iff.2 (.inl (decide_eq_false fun hlower => ?_))
    have hge : 97 ≤ c.val.toNat := UInt32.le_iff_toNat_le.1 hlower
    omega
  have hletter : c.isAlpha = false := by
    show (c.isUpper || c.isLower) = false
    rw [hupper, hlower]
    rfl
  simp [LexemeKind.ofChar?, hletter, h]

theorem isDigit_of_mem_decimalNat {n : Nat} {c : Char} (h : c ∈ (decimalNat n).toList) :
    c.isDigit = true := by
  rw [decimalNat, Nat.toList_repr] at h
  exact Nat.isDigit_of_mem_toDigits (by omega) (by omega) h

/-- The digits of a number are one numeral. -/
theorem lexemes_decimalNat (n : Nat) :
    lexemes (decimalNat n).toList = [.numeral (Nat.toDigits 10 n) none] := by
  have hdigits : ∀ c ∈ Nat.toDigits 10 n, c.isDigit = true := fun c hc =>
    Nat.isDigit_of_mem_toDigits (by omega) (by omega) hc
  rw [decimalNat, Nat.toList_repr]
  cases hn : Nat.toDigits 10 n with
  | nil => exact absurd hn Nat.toDigits_ne_nil
  | cons c cs =>
    rw [hn] at hdigits
    have hc := hdigits c (by simp)
    have hcs : ∀ d ∈ cs, d.isDigit = true := fun d hd => hdigits d (by simp [hd])
    have hkind := LexemeKind.ofChar?_of_isDigit hc
    have hlex : Lexeme.ofChars c cs = .numeral (c :: cs) none := by
      unfold Lexeme.ofChars
      rw [hkind]
      simp only [List.takeWhile_eq_self_iff.2 hcs, List.dropWhile_eq_nil_iff.2 hcs]
      rfl
    rw [lexemes_cons (LexemeKind.isSpace_eq_false_of_ofChar? hkind), hlex]
    simp [Lexeme.chars]

/-- A letter, and letters and digits after it. -/
def IsName (cs : List Char) : Prop :=
  (∃ c ∈ cs.head?, c.isAlpha = true) ∧ ∀ c ∈ cs, isNameChar c = true

/-- A name is one lexeme. -/
theorem lexemes_name {cs : List Char} (h : IsName cs) : lexemes cs = [.name cs] := by
  obtain ⟨⟨c, hc, halpha⟩, hall⟩ := h
  cases cs with
  | nil => simp at hc
  | cons d cs =>
    obtain rfl : d = c := by simpa using hc
    have hcs : ∀ e ∈ cs, isNameChar e = true := fun e he => hall e (by simp [he])
    have hkind := LexemeKind.ofChar?_eq_letter.2 halpha
    have hlex : Lexeme.ofChars d cs = .name (d :: cs) := by
      unfold Lexeme.ofChars
      rw [hkind]
      simp only [List.takeWhile_eq_self_iff.2 hcs]
    rw [lexemes_cons (LexemeKind.isSpace_eq_false_of_ofChar? hkind), hlex]
    simp [Lexeme.chars]

/-- A name starts with a letter and goes on for as long as there are letters and digits. -/
theorem ofChars_eq_name {c : Char} {cs ds : List Char} (h : Lexeme.ofChars c cs = .name ds) :
    c.isAlpha = true ∧ ds = c :: cs.takeWhile isNameChar := by
  unfold Lexeme.ofChars at h
  split at h
  · cases h
  · next hkind =>
    cases h
    exact ⟨LexemeKind.ofChar?_eq_letter.1 hkind, rfl⟩
  · unfold Lexeme.numeralBefore at h
    split at h <;> cases h
  · cases h

/-- The names of a text are letters with letters and digits after them. -/
theorem isName_of_mem_lexemes {ds : List Char} (cs : List Char) (h : .name ds ∈ lexemes cs) :
    IsName ds := by
  induction cs using lexeme_induction with
  | nil => simp at h
  | blank c cs hspace ih =>
    rw [lexemes_blank hspace] at h
    exact ih h
  | lexeme c cs hspace ih =>
    rw [lexemes_cons hspace] at h
    rcases List.mem_cons.1 h with heq | hmem
    · obtain ⟨halpha, rfl⟩ := ofChars_eq_name heq.symm
      refine ⟨⟨c, by simp, halpha⟩, fun d hd => ?_⟩
      rcases List.mem_cons.1 hd with rfl | hd
      · simp [isNameChar, halpha]
      · exact List.mem_takeWhile_imp hd
    · exact ih hmem

/-! ## What a text spells -/

/-- The text has the given lexemes and does not start with a blank. -/
structure Spells (t : String) (ls : List Lexeme) : Prop where
  lexemes : Reckoner.lexemes t.toList = ls
  head : ∀ c ∈ t.toList.head?, isSpace c = false

namespace Spells

variable {t u : String} {ls ls' : List Lexeme} {k : LexemeKind} {c : Char}

theorem ne_empty (ht : Spells t ls) (hls : ls ≠ []) : t ≠ "" := by
  rintro rfl
  exact hls (ht.lexemes.symm.trans lexemes_nil)

theorem append (ht : Spells t ls) (hls : ls ≠ []) (hu : Reckoner.lexemes u.toList = ls')
    (h : Stands u.toList) : Spells (t ++ u) (ls ++ ls') := by
  refine ⟨by rw [String.toList_append, lexemes_append h, ht.lexemes, hu], fun c hc => ?_⟩
  rw [String.toList_append] at hc
  cases ht' : t.toList with
  | nil => exact absurd (String.toList_eq_nil_iff.1 ht') (ht.ne_empty hls)
  | cons d ds => exact ht.head c (by simpa [ht'] using hc)

theorem mark {m : String} (hm : m.toList = [c]) (hk : k.IsMark c)
    (hu : Reckoner.lexemes u.toList = ls) : Spells (m ++ u) (.mark k c :: ls) := by
  have hlist : (m ++ u).toList = c :: u.toList := by simp [hm]
  refine ⟨by rw [hlist, hk.lexemes, hu], fun d hd => ?_⟩
  obtain rfl : c = d := by simpa [hlist] using hd
  exact hk.isSpace_eq_false

/-- Parentheses around a text are a lexeme on either side. -/
theorem group (ht : Spells t ls) :
    Spells ("(" ++ t ++ ")") (.mark .opening '(' :: ls ++ [.mark .closing ')']) := by
  have hclose : Spells (")" ++ "") [.mark .closing ')'] := mark (by decide) (by decide) lexemes_nil
  have hopen : Spells ("(" ++ t) (.mark .opening '(' :: ls) :=
    mark (by decide) (by decide) ht.lexemes
  exact hopen.append (by simp) hclose.lexemes (by decide)

/-- A text starts with a minus sign exactly if its first lexeme is one. -/
theorem head_eq_minus (h : Spells t ls) :
    t.toList.head? = some '-' ↔ ∃ d, ls.head? = some (.mark .minus d) := by
  obtain ⟨hls, hhead⟩ := h
  cases ht : t.toList with
  | nil => simp [← hls, ht]
  | cons c cs =>
    have hc := hhead c (by simp [ht])
    rw [← hls, ht, lexemes_cons hc]
    simp only [List.head?_cons, Option.some.injEq]
    constructor
    · rintro rfl
      exact ⟨'-', rfl⟩
    · rintro ⟨d, hd⟩
      unfold Lexeme.ofChars at hd
      split at hd
      · cases hd
      · cases hd
      · unfold Lexeme.numeralBefore at hd
        split at hd <;> cases hd
      · next hkind =>
        cases hd
        have hmark : LexemeKind.minus.IsMark c := ⟨hkind, by decide, by decide⟩
        exact hmark.eq (by decide)

end Spells

theorem spells_decimalNat (n : Nat) :
    Spells (decimalNat n) [.numeral (Nat.toDigits 10 n) none] := by
  refine ⟨lexemes_decimalNat n, fun c hc => ?_⟩
  have hdigit : c.isDigit = true := isDigit_of_mem_decimalNat (List.mem_of_mem_head? hc)
  exact LexemeKind.isSpace_eq_false_of_ofChar? (LexemeKind.ofChar?_of_isDigit hdigit)

theorem spells_name {name : String} (h : IsName name.toList) : Spells name [.name name.toList] := by
  refine ⟨lexemes_name h, fun c hc => ?_⟩
  obtain ⟨⟨d, hd, halpha⟩, -⟩ := h
  obtain rfl : c = d := Option.some.inj (hc.symm.trans hd)
  exact LexemeKind.isSpace_eq_false_of_ofChar? (LexemeKind.ofChar?_eq_letter.2 halpha)

end Reckoner
