import Reckoner.Registry
import Reckoner.Proofs.Grammar.Soundness
import Reckoner.Proofs.Grammar.Splitting

/-!
# Where errors point

An error in a text has a position, and what stands there is what the error complains about. The
reader takes positions from the tokens that it still has or has had, and these are tokens of the
text, so it is enough to know what stands where a token starts.
-/

namespace Reckoner

open Grammar

/-! ## Where tokens start -/

/-- The token is the lexeme that starts at its position in the text. The position does not divide a
run of digits. -/
def Token.StandsIn (text : List Char) (t : Token) : Prop :=
  ∃ before c cs, text = before ++ c :: cs ∧ t.start = before.length ∧
    t.lexeme = Lexeme.ofChars c cs ∧ (c.isDigit = true → ∀ d ∈ before.getLast?, d.isDigit = false)

/-- The digits of a numeral are all that stand there. -/
theorem ofChars_eq_numeral {c : Char} {cs ds : List Char} {fs : Option (List Char)}
    (h : Lexeme.ofChars c cs = .numeral ds fs) :
    c.isDigit = true ∧ ds = c :: cs.takeWhile Char.isDigit := by
  unfold Lexeme.ofChars at h
  split at h
  · cases h
  · cases h
  · next hkind =>
    refine ⟨LexemeKind.isDigit_of_ofChar? hkind, ?_⟩
    unfold Lexeme.numeralBefore at h
    split at h
    · cases h
      rfl
    · cases h
      rfl
  · cases h

theorem ofChars_eq_mark {c d : Char} {cs : List Char} {k : LexemeKind}
    (h : Lexeme.ofChars c cs = .mark k d) : k.IsMark c ∧ d = c := by
  unfold Lexeme.ofChars at h
  split at h
  · cases h
  · cases h
  · unfold Lexeme.numeralBefore at h
    split at h <;> cases h
  · next kind hletter hdigit hkind =>
    cases h
    exact ⟨⟨hkind, hletter, hdigit⟩, rfl⟩

theorem first_ofChars (c : Char) (cs : List Char) : (Lexeme.ofChars c cs).first = c := by
  unfold Lexeme.ofChars
  split
  · rfl
  · rfl
  · unfold Lexeme.numeralBefore
    split <;> rfl
  · rfl

theorem drop_length_takeWhile (p : Char → Bool) (cs : List Char) :
    cs.drop (cs.takeWhile p).length = cs.dropWhile p := by
  have hsplit := List.takeWhile_append_dropWhile (p := p) (l := cs)
  exact (congrArg (List.drop _) hsplit.symm).trans List.drop_left

/-- Behind a numeral there is no digit. -/
theorem stopsAt_behind_numeral {c : Char} {cs ds : List Char} {fs : Option (List Char)}
    (h : Lexeme.ofChars c cs = .numeral ds fs) :
    StopsAt Char.isDigit (cs.drop ((Lexeme.numeral ds fs).chars.length - 1)) := by
  obtain ⟨hc, rfl⟩ := ofChars_eq_numeral h
  have hdrop := drop_length_takeWhile Char.isDigit cs
  unfold Lexeme.ofChars at h
  rw [LexemeKind.ofChar?_of_isDigit hc] at h
  simp only [Lexeme.numeralBefore] at h
  split at h
  · next rest hrest =>
    cases h
    have hlength : (Lexeme.numeral (c :: cs.takeWhile Char.isDigit)
        (some (rest.takeWhile Char.isDigit))).chars.length - 1 =
          (cs.takeWhile Char.isDigit).length + ((rest.takeWhile Char.isDigit).length + 1) := by
      simp [Lexeme.chars]
    rw [hlength, ← List.drop_drop, hdrop, hrest, List.drop_succ_cons, drop_length_takeWhile]
    exact stopsAt_dropWhile Char.isDigit rest
  · cases h
    simp only [Lexeme.chars, List.length_cons, Nat.add_sub_cancel, hdrop]
    exact stopsAt_dropWhile Char.isDigit cs

/-- A digit behind a lexeme does not go on with a run of digits. -/
theorem digit_behind (c : Char) (cs : List Char) {d : Char}
    (hd : d ∈ (cs.drop ((Lexeme.ofChars c cs).chars.length - 1)).head?)
    (hdigit : d.isDigit = true) :
    (Lexeme.ofChars c cs).chars.length - 1 = 0 ∧ c.isDigit = false := by
  cases hlexeme : Lexeme.ofChars c cs with
  | name ds =>
    obtain ⟨-, rfl⟩ := ofChars_eq_name hlexeme
    rw [hlexeme] at hd
    simp only [Lexeme.chars, List.length_cons, Nat.add_sub_cancel, drop_length_takeWhile] at hd
    have hstop := stopsAt_dropWhile isNameChar cs d hd
    rw [isNameChar_of_isDigit hdigit] at hstop
    cases hstop
  | numeral ds fs =>
    rw [hlexeme] at hd
    have hstop := stopsAt_behind_numeral hlexeme d hd
    rw [hdigit] at hstop
    cases hstop
  | mark k e =>
    refine ⟨rfl, Bool.eq_false_iff.2 fun hc => ?_⟩
    obtain ⟨⟨hkind, -, hk⟩, -⟩ := ofChars_eq_mark hlexeme
    exact hk (Option.some.inj (hkind.symm.trans (LexemeKind.ofChar?_of_isDigit hc)))
  | stray e =>
    refine ⟨rfl, Bool.eq_false_iff.2 fun hc => ?_⟩
    unfold Lexeme.ofChars Lexeme.numeralBefore at hlexeme
    rw [LexemeKind.ofChar?_of_isDigit hc] at hlexeme
    simp only at hlexeme
    split at hlexeme <;> cases hlexeme

/-- Every token stands in the text at its own position, provided that no numeral is cut into. -/
theorem standsIn_of_mem_tokensFrom {text : List Char} (before cs : List Char)
    (htext : text = before ++ cs)
    (hdigit : ∀ c ∈ cs.head?, c.isDigit = true → ∀ d ∈ before.getLast?, d.isDigit = false)
    {t : Token} (ht : t ∈ tokensFrom before.length cs) : t.StandsIn text := by
  induction cs using lexeme_induction generalizing before with
  | nil =>
    rw [tokensFrom] at ht
    cases ht
  | blank c cs hspace ih =>
    rw [tokensFrom, if_pos hspace] at ht
    -- a numeral may start behind a blank
    have hblank : c.isDigit = false := by
      refine Bool.eq_false_iff.2 fun hc => ?_
      have hne := LexemeKind.isSpace_eq_false_of_ofChar? (LexemeKind.ofChar?_of_isDigit hc)
      rw [hspace] at hne
      cases hne
    refine ih (before ++ [c]) (by simp [htext]) ?_ ?_
    · intro _ _ _ d hd
      obtain rfl : c = d := by simpa using hd
      exact hblank
    · rwa [List.length_append, List.length_singleton]
  | lexeme c cs hspace ih =>
    rw [tokensFrom, if_neg (by simp [hspace])] at ht
    rcases List.mem_cons.1 ht with rfl | ht
    · exact ⟨before, c, cs, htext, rfl, rfl, hdigit c (by simp)⟩
    · have hle := length_chars_ofChars c cs
      -- a digit behind a lexeme starts a numeral of its own
      have hbehind := @digit_behind c cs
      generalize (Lexeme.ofChars c cs).chars.length - 1 = more at hle hbehind ht ih
      refine ih (before ++ c :: cs.take more) ?_ ?_ ?_
      · rw [htext, List.append_assoc, List.cons_append, List.take_append_drop]
      · intro d hd hdd e he
        obtain ⟨rfl, hc⟩ := hbehind hd hdd
        obtain rfl : c = e := by simpa using he
        exact hc
      · rw [List.length_append, List.length_cons, List.length_take_of_le hle]
        rwa [Nat.add_assoc, Nat.add_comm 1] at ht

/-- What the reader still has in front of it stands in the text. -/
theorem standsIn_of_suffix {text : List Char} {t : Token} {rest : List Token}
    (h : t :: rest <:+ tokens text) : t.StandsIn text :=
  standsIn_of_mem_tokensFrom [] text rfl (by simp) (h.subset List.mem_cons_self)

namespace Token.StandsIn

variable {text : List Char} {t : Token}

/-- At the position of a token stands its first character. -/
theorem getElem? (h : t.StandsIn text) : text[t.start]? = some t.lexeme.first := by
  obtain ⟨before, c, cs, rfl, hstart, hlexeme, -⟩ := h
  rw [hstart, hlexeme, first_ofChars]
  simp

theorem isMark (h : t.StandsIn text) {k : LexemeKind} {c : Char} (hc : t.lexeme = .mark k c) :
    k.IsMark c := by
  obtain ⟨before, d, cs, -, -, hlexeme, -⟩ := h
  obtain ⟨hmark, rfl⟩ := ofChars_eq_mark (hlexeme.symm.trans hc)
  exact hmark

/-- At the position of a mark stands the character of its kind. -/
theorem getElem?_mark (h : t.StandsIn text) {k : LexemeKind} {c d : Char}
    (hc : t.lexeme = .mark k c) (hd : k.IsMark d) : text[t.start]? = some d := by
  rw [h.getElem?, hc, (h.isMark hc).eq hd]
  rfl

end Token.StandsIn

/-! ## What errors point at -/

/-- The name is what there is of letters and digits from the position on. -/
structure NameAt (text : List Char) (p : Nat) (name : String) : Prop where
  nonempty : name ≠ ""
  letters : (text.drop p).takeWhile isNameChar = name.toList

/-- A run of more digits than a numeral may have starts at the position, with the given ones. -/
structure LongRunAt (text : List Char) (p : Nat) (first : String) : Prop where
  starts : ∀ d ∈ (text.take p).getLast?, d.isDigit = false
  long : maxDecimalDigits < ((text.drop p).takeWhile Char.isDigit).length
  first : first.toList = ((text.drop p).takeWhile Char.isDigit).take 20

namespace Token.StandsIn

variable {text : List Char} {t : Token}

/-- At the position of a name the text reads that name and nothing longer. -/
theorem nameAt (h : t.StandsIn text) {cs : List Char} (hcs : t.lexeme = .name cs) :
    NameAt text t.start (String.ofList cs) := by
  obtain ⟨before, c, ds, rfl, hstart, hlexeme, -⟩ := h
  obtain ⟨halpha, rfl⟩ := ofChars_eq_name (hlexeme.symm.trans hcs)
  constructor
  · rw [← String.toList_inj.ne]
    simp
  · rw [hstart, List.drop_left, List.takeWhile_cons_of_pos (by simp [isNameChar, halpha]),
      String.toList_ofList]

/-- At the position of a long numeral the text has a long run of digits. -/
theorem longRunAt (h : t.StandsIn text) {ds : List Char} {fs : Option (List Char)}
    (hds : t.lexeme = .numeral ds fs) (hlong : maxDecimalDigits < ds.length) :
    LongRunAt text t.start (String.ofList (ds.take 20)) := by
  obtain ⟨before, c, cs, rfl, hstart, hlexeme, hbefore⟩ := h
  obtain ⟨hdigit, rfl⟩ := ofChars_eq_numeral (hlexeme.symm.trans hds)
  have hrun : ((before ++ c :: cs).drop t.start).takeWhile Char.isDigit =
      c :: cs.takeWhile Char.isDigit := by
    rw [hstart, List.drop_left, List.takeWhile_cons_of_pos hdigit]
  refine ⟨?_, hrun ▸ hlong, ?_⟩
  · rw [hstart, List.take_left]
    exact hbefore hdigit
  · rw [hrun, String.toList_ofList]

end Token.StandsIn

/-- The rest of the tokens follows a call that lacks nothing but its closing parenthesis, and does
not start with one. -/
def Scope.LeavesOpen (s : Scope) (text : List Char) (rest : List Token) : Prop :=
  ∃ before name opening params cs c depth es,
    tokens text = before ++ name :: opening :: params ++ rest ∧
    name.lexeme = .name cs ∧ opening.lexeme = .mark .opening c ∧
    Parameters s.actions (termAt s.actions depth) (params.map Token.lexeme) es ∧
    ∀ t ∈ rest.head?, ∀ d, t.lexeme ≠ .mark .closing d

/-- What the error complains about stands at its position. -/
def SyntaxError.PointsInto (s : Scope) (text : List Char) : SyntaxError → Prop
  | .unidentified c p => text[p]? = some c
  | .unexpected c p => text[p]? = some c
  | .unexpectedEnd p => p = text.length
  | .extraClose p => text[p]? = some ')'
  | .missingClose p => text[p]? = some '('
  | .unclosedCall p => ∃ rest, s.LeavesOpen text rest ∧ p = rest.head?.elim text.length Token.start
  | .divisionByZero p => text[p]? = some '/'
  | .numeralTooLong ds p => LongRunAt text p ds
  | .notCallable name p => NameAt text p name
  | .unsupportedOperator name p => NameAt text p name
  | .tooDeep => True

/-! ## Readers -/

theorem except_bind_eq_error {ε α β : Type} {x : Except ε α} {f : α → Except ε β} {e : ε} :
    (x >>= f) = .error e ↔ x = .error e ∨ ∃ a, x = .ok a ∧ f a = .error e := by
  cases x <;> simp [bind, Except.bind]

section Readers

variable {α β : Type} {s : Scope} {text : List Char} {P : Phrase α} {Q : Phrase β}

/-- On tokens at the end of the text the errors of the reader point into the text. -/
def Points (s : Scope) (text : List Char) (item : ReaderOf α) : Prop :=
  ∀ ts e, ts <:+ tokens text → item ts = .error e → e.PointsInto s text

/-- The errors of a reader point into the text where a separator is followed by what it reads. -/
def PointsAfter (s : Scope) (text : List Char) (separator : Token → Option (ReaderOf β)) : Prop :=
  ∀ t rest item, t :: rest <:+ tokens text → separator t = some item → Points s text item

/-- A stray character is reported where it stands. -/
theorem pointsInto_of_ready {ts : List Token} {e : SyntaxError} (hts : ts <:+ tokens text)
    (h : ready ts = .error e) : e.PointsInto s text := by
  unfold ready at h
  split at h
  · next c position rest =>
    cases h
    exact (standsIn_of_suffix hts).getElem?
  · cases h

/-- What a reader leaves is at the end of the text again. -/
theorem Derives.suffix {item : ReaderOf α} (h : Derives item P) {ts : List Token} {a : α}
    {r : Rest ts.length} (hread : item ts = .ok (a, r)) (hts : ts <:+ tokens text) :
    r.1 <:+ tokens text := by
  obtain ⟨taken, heq, -⟩ := h ts a r hread
  exact (List.suffix_append taken r.1).trans (heq ▸ hts)

theorem Points.afterToken {item : ReaderOf α} (h : Points s text item) {t : Token}
    {rest : List Token} {e : SyntaxError} (hts : t :: rest <:+ tokens text)
    (hread : afterToken item t rest = .error e) : e.PointsInto s text := by
  have hrest : rest <:+ tokens text := (List.suffix_cons t rest).trans hts
  rcases except_bind_eq_error.1 hread with hready | ⟨-, -, hread⟩
  · exact pointsInto_of_ready hrest hready
  rcases except_bind_eq_error.1 hread with hitem | ⟨p, -, hread⟩
  · exact h rest e hrest hitem
  · cases hread

/-- Every round of a repetition reads tokens of the text, so its errors point into it. -/
theorem PointsAfter.series {separator : Token → Option (ReaderOf β)}
    (h : PointsAfter s text separator) (hd : DerivesAfter separator Q) {n : Nat}
    (ts : List Token) {hn : ts.length < n} {e : SyntaxError} (hts : ts <:+ tokens text)
    (hread : series separator n ts hn = .error e) : e.PointsInto s text := by
  induction ts, hn using Reckoner.series.induct separator n with
  | case1 =>
    rw [Reckoner.series] at hread
    cases hread
  | case2 t rest _ hnone =>
    rw [Reckoner.series, hnone] at hread
    cases hread
  | case3 t rest _ item hitem _ ih =>
    have hrest : rest <:+ tokens text := (List.suffix_cons t rest).trans hts
    rw [Reckoner.series, hitem] at hread
    rcases except_bind_eq_error.1 hread with hready | ⟨-, -, hread⟩
    · exact pointsInto_of_ready hrest hready
    rcases except_bind_eq_error.1 hread with hfail | ⟨⟨b, r⟩, hb, hread⟩
    · exact h t rest item hts hitem rest e hrest hfail
    rcases except_bind_eq_error.1 hread with hfail | ⟨p, -, hread⟩
    · exact ih r ((hd t item hitem).suffix hb hrest) hfail
    · cases hread

theorem Points.itemAndSeries {item : ReaderOf α} {separator : Token → Option (ReaderOf β)}
    (hitem : Points s text item) (hP : Derives item P) (hsep : PointsAfter s text separator)
    (hQ : DerivesAfter separator Q) : Points s text (itemAndSeries item separator) := by
  intro ts e hts hread
  rcases except_bind_eq_error.1 hread with hfail | ⟨⟨a, r⟩, ha, hread⟩
  · exact hitem ts e hts hfail
  rcases except_bind_eq_error.1 hread with hfail | ⟨p, -, hread⟩
  · exact hsep.series hQ r.1 (hP.suffix ha hts) hfail
  · cases hread

theorem Points.map {item : ReaderOf α} (h : Points s text item) (f : α → β) :
    Points s text (fun ts => do let (a, r) ← item ts; return (f a, r)) := by
  intro ts e hts hread
  rcases except_bind_eq_error.1 hread with hfail | ⟨p, -, hread⟩
  · exact h ts e hts hfail
  · cases hread

theorem eq_some_of_onKind {kind : LexemeKind} {item item' : ReaderOf β} {t : Token}
    (h : onKind kind item t = some item') : item' = item ∧ ∃ c, t.lexeme = .mark kind c := by
  unfold onKind at h
  split at h
  · next k c hk =>
    split at h
    · next heq =>
      cases h
      exact ⟨rfl, c, heq ▸ hk⟩
    · cases h
  · cases h

theorem pointsAfter_onKind (kind : LexemeKind) {item : ReaderOf β} (h : Points s text item) :
    PointsAfter s text (onKind kind item) := by
  intro t rest item' hts hitem
  obtain ⟨rfl, -⟩ := eq_some_of_onKind hitem
  exact h

end Readers

namespace Scope

variable {s : Scope} {text : List Char}

section Terms

variable {term : Reader} {T : Phrase Expr}

/-! ### Operators between terms -/

section Operators

variable (hT : Derives term T) (h : Points s text term)

include hT h

theorem points_power : Points s text (s.power term) :=
  (h.itemAndSeries hT (pointsAfter_onKind .caret h) (derivesAfter_onKind .caret fun _ => hT)).map
    fun p => s.chain .power p.1 p.2

/-- A division by zero is reported at its slash. -/
theorem points_divisor {position : Nat} (hslash : text[position]? = some '/') :
    Points s text (s.divisor term position) := by
  intro ts e hts hread
  rcases except_bind_eq_error.1 hread with hfail | ⟨p, -, hread⟩
  · exact points_power hT h ts e hts hfail
  · simp only at hread
    split at hread
    · cases hread
      exact hslash
    · cases hread

theorem points_division : Points s text (s.division term) := by
  refine ((points_power hT h).itemAndSeries (derives_power hT) ?_
    (derivesAfter_onKind .slash fun t => derives_divisor hT t.start)).map
    fun p => s.quotient p.1 p.2
  intro t rest item hts hitem
  obtain ⟨rfl, c, hc⟩ := eq_some_of_onKind hitem
  exact points_divisor hT h ((standsIn_of_suffix hts).getElem?_mark hc (by decide))

theorem points_multiplication (negative : Bool) :
    Points s text (s.multiplication term negative) :=
  ((points_division hT h).itemAndSeries (derives_division hT)
    (pointsAfter_onKind .star (points_division hT h))
    (derivesAfter_onKind .star fun _ => derives_division hT)).map fun p =>
      s.join .multiply (if negative then negateFactors (p.1 :: p.2) else p.1 :: p.2)

theorem pointsAfter_signedMultiplication :
    PointsAfter s text (s.signedMultiplication term) := by
  intro t rest item hts hitem
  unfold signedMultiplication at hitem
  split at hitem
  · cases hitem
    exact points_multiplication hT h false
  · cases hitem
    exact points_multiplication hT h true
  · cases hitem

theorem points_leadingMultiplication : Points s text (s.leadingMultiplication term) := by
  intro ts e hts hread
  cases ts with
  | nil => exact points_multiplication hT h false [] e hts hread
  | cons t rest =>
    simp only [leadingMultiplication] at hread
    cases hsign : s.signedMultiplication term t with
    | some item =>
      rw [hsign] at hread
      exact (pointsAfter_signedMultiplication hT h t rest item hts hsign).afterToken hts hread
    | none =>
      rw [hsign] at hread
      exact points_multiplication hT h false _ e hts hread

/-- The errors of an expression point into the text if those of its terms do. -/
theorem points_expression : Points s text (s.expression term) :=
  ((points_leadingMultiplication hT h).itemAndSeries (derives_leadingMultiplication hT)
    (pointsAfter_signedMultiplication hT h) (derivesAfter_signedMultiplication hT)).map fun p =>
      s.join .add (p.1 :: p.2)

theorem points_definition : Points s text (s.definition term) :=
  ((points_expression hT h).itemAndSeries (derives_expression hT)
    (pointsAfter_onKind .equals (points_expression hT h))
    (derivesAfter_onKind .equals fun _ => derives_expression hT)).map fun p =>
      s.chain (.define s.store) p.1 p.2

end Operators

end Terms

/-! ### Terms -/

/-- Where a parenthesis must close, it is missing or what follows it cannot be read. -/
theorem pointsInto_of_closing {missing : Option Token → SyntaxError} {n : Nat} {r : Rest n}
    {e : SyntaxError} (hr : r.1 <:+ tokens text) (h : closing missing r = .error e)
    (hmissing : (∀ t ∈ r.1.head?, ∀ c, t.lexeme ≠ .mark .closing c) →
      (missing r.1.head?).PointsInto s text) : e.PointsInto s text := by
  obtain ⟨ts, hts⟩ := r
  cases ts with
  | nil =>
    cases h
    exact hmissing (by simp)
  | cons t rest =>
    simp only [closing] at h
    split at h
    · rcases except_bind_eq_error.1 h with hready | ⟨-, -, h⟩
      · exact pointsInto_of_ready ((List.suffix_cons t rest).trans hr) hready
      · cases h
    · next hclosing =>
      cases h
      refine hmissing fun t' ht' c hc => ?_
      obtain rfl : t = t' := by simpa using ht'
      exact hclosing c hc

variable {item : Reader} {P : Phrase Expr}

/-- A parenthesis that is not closed is reported where it was opened. -/
theorem points_parenthesized (hP : Derives item P) (h : Points s text item) {position : Nat}
    (hopening : text[position]? = some '(') : Points s text (parenthesized item position) := by
  intro ts e hts hread
  rcases except_bind_eq_error.1 hread with hfail | ⟨⟨a, r⟩, ha, hread⟩
  · exact h ts e hts hfail
  rcases except_bind_eq_error.1 hread with hfail | ⟨p, -, hread⟩
  · exact pointsInto_of_closing (hP.suffix ha hts) hfail fun _ => hopening
  · cases hread

/-- The errors between the parentheses of a call. -/
theorem pointsInto_of_parameters {depth : Nat}
    (hP : Derives item (Expression s.actions (termAt s.actions depth))) (h : Points s text item)
    {before ts : List Token} {name opening : Token} {cs : List Char} {c : Char}
    (hall : tokens text = before ++ name :: opening :: ts) (hname : name.lexeme = .name cs)
    (hopening : opening.lexeme = .mark .opening c) {e : SyntaxError}
    (hread : parameters item text.length ts = .error e) : e.PointsInto s text := by
  have hts : ts <:+ tokens text := ⟨before ++ [name, opening], by simp [hall]⟩
  simp only [parameters] at hread
  split at hread
  · next d hhead =>
    rcases except_bind_eq_error.1 hread with hfail | ⟨r, -, hread⟩
    · refine pointsInto_of_closing hts hfail fun hnone => ?_
      -- there is a closing parenthesis
      obtain ⟨t, ht, htd⟩ := Option.map_eq_some_iff.1 hhead
      exact absurd htd (hnone t ht d)
    · cases hread
  · have hitems := h.itemAndSeries hP (pointsAfter_onKind .comma h)
      (derivesAfter_onKind .comma fun _ => hP)
    have hphrases := hP.itemAndSeries (derivesAfter_onKind .comma fun _ => hP)
    rcases except_bind_eq_error.1 hread with hfail | ⟨⟨⟨a, as⟩, r⟩, ha, hread⟩
    · exact hitems ts e hts hfail
    rcases except_bind_eq_error.1 hread with hfail | ⟨r', -, hread⟩
    · refine pointsInto_of_closing (hphrases.suffix ha hts) hfail fun hnone => ?_
      obtain ⟨taken, htaken, ls₁, ls₂, hls, first, others⟩ := hphrases ts _ r ha
      refine ⟨r.1, ⟨before, name, opening, taken, cs, c, depth, a :: as, ?_, hname, hopening, ?_,
        hnone⟩, rfl⟩
      · exact (hall.trans (congrArg (before ++ name :: opening :: ·) htaken)).trans (by simp)
      · rw [hls]
        exact .some first others
    · cases hread

theorem symbol_eq_error {name : String} {position : Nat} {e : SyntaxError}
    (h : s.symbol name position = .error e) : e = .unsupportedOperator name position := by
  unfold symbol at h
  split at h
  · split at h
    · cases h
    · cases h
      rfl
  · split at h <;> cases h

/-- What starts with a name is reported at the name, at its list of arguments or inside of it. -/
theorem pointsInto_of_named {depth : Nat}
    (hP : Derives item (Expression s.actions (termAt s.actions depth))) (h : Points s text item)
    {start : Nat} {cs : List Char} {ts : List Token}
    (hts : ⟨.name cs, start⟩ :: ts <:+ tokens text) {e : SyntaxError}
    (hread : s.named item text.length (String.ofList cs) start ts = .error e) :
    e.PointsInto s text := by
  have hname : NameAt text start (String.ofList cs) := (standsIn_of_suffix hts).nameAt rfl
  cases ts with
  | nil =>
    rcases except_bind_eq_error.1 hread with hfail | ⟨a, -, hread⟩
    · rw [symbol_eq_error hfail]
      exact hname
    · cases hread
  | cons t rest =>
    simp only [named] at hread
    rcases except_bind_eq_error.1 hread with hfail | ⟨a, ha, hread⟩
    · rw [symbol_eq_error hfail]
      exact hname
    split at hread
    · next hopening =>
      obtain ⟨before, hall⟩ := hts
      rcases except_bind_eq_error.1 hread with hready | ⟨-, -, hread⟩
      · exact pointsInto_of_ready ⟨before ++ [⟨.name cs, start⟩, t], by simp [← hall]⟩ hready
      rcases except_bind_eq_error.1 hread with hfail | ⟨p, -, hread⟩
      · exact pointsInto_of_parameters hP h hall.symm rfl hopening hfail
      · cases hread
    · cases hread
      exact hname
    · cases hread

/-- A numeral is reported for its length only. -/
theorem pointsInto_of_readNumeral {start : Nat} {ds : List Char} {fs : Option (List Char)}
    (h : (⟨.numeral ds fs, start⟩ : Token).StandsIn text) {e : SyntaxError}
    (hread : readNumeral start ds fs = .error e) : e.PointsInto s text := by
  cases fs with
  | some fs => cases hread
  | none =>
    simp only [readNumeral] at hread
    split at hread
    · next hlong =>
      cases hread
      exact h.longRunAt rfl hlong
    · cases hread

theorem pointsInto_unexpected {t : Token} (h : t.StandsIn text) :
    (unexpected t).PointsInto s text := by
  unfold unexpected
  split
  · next c hc => exact h.getElem?_mark hc (by decide)
  · next c hc =>
    have hchar := h.getElem?
    rw [hc] at hchar
    exact hchar
  · exact h.getElem?

/-- The errors of a term point into the text, by induction on the nesting that is left. -/
theorem points_term (s : Scope) (text : List Char) (depth : Nat) :
    Points s text (s.term text.length depth) := by
  induction depth with
  | zero =>
    intro ts e _ hread
    cases hread
    trivial
  | succ depth ih =>
    -- terms inside are one level less deep, so the hypothesis covers whole expressions inside
    have hterm := derives_term s text.length depth
    have hexpression := points_expression hterm ih
    have hphrase := derives_expression (s := s) hterm
    intro ts e hts hread
    cases ts with
    | nil =>
      cases hread
      rfl
    | cons t rest =>
      have hstands := standsIn_of_suffix hts
      have hrest : rest <:+ tokens text := (List.suffix_cons t rest).trans hts
      obtain ⟨lexeme, start⟩ := t
      simp only [term, termWith] at hread
      split at hread
      · rcases except_bind_eq_error.1 hread with hfail | ⟨p, -, hread⟩
        · exact ih.afterToken hts hfail
        · cases hread
      · rcases except_bind_eq_error.1 hread with hready | ⟨-, -, hread⟩
        · exact pointsInto_of_ready hrest hready
        · exact pointsInto_of_named hphrase hexpression hts hread
      · rcases except_bind_eq_error.1 hread with hready | ⟨-, -, hread⟩
        · exact pointsInto_of_ready hrest hready
        rcases except_bind_eq_error.1 hread with hfail | ⟨n, -, hread⟩
        · exact pointsInto_of_readNumeral hstands hfail
        · cases hread
      · have hopening := hstands.getElem?_mark rfl (show LexemeKind.opening.IsMark '(' by decide)
        exact (points_parenthesized hphrase hexpression hopening).afterToken hts hread
      · cases hread
        exact pointsInto_unexpected hstands

/-! ### Whole texts -/

/-- The errors of a whole text point into it, also that of a token too many. -/
theorem pointsInto_of_readWithin {depth : Nat} {e : SyntaxError}
    (hread : s.readWithin depth text = .error e) : e.PointsInto s text := by
  have hterm := derives_term s text.length depth
  have hdefinition := points_definition hterm (points_term s text depth)
  have hall := List.suffix_refl (tokens text)
  rcases except_bind_eq_error.1 hread with hready | ⟨-, -, hread⟩
  · exact pointsInto_of_ready hall hready
  rcases except_bind_eq_error.1 hread with hfail | ⟨⟨a, r⟩, ha, hread⟩
  · exact hdefinition _ e hall hfail
  · have hsuffix := (derives_definition hterm).suffix ha hall
    simp only at hread
    split at hread
    · cases hread
    · next t rest hr =>
      cases hread
      exact pointsInto_unexpected (standsIn_of_suffix (hr ▸ hsuffix))

end Scope

/-- What stands at a position of the text stands before its end. -/
theorem le_length_of_getElem? {text : List Char} {p : Nat} {c : Char} (h : text[p]? = some c) :
    p ≤ text.length := by
  obtain ⟨hlt, -⟩ := List.getElem?_eq_some_iff.1 h
  exact Nat.le_of_lt hlt

theorem le_length_of_takeWhile {text : List Char} {p : Nat} {q : Char → Bool}
    (h : (text.drop p).takeWhile q ≠ []) : p ≤ text.length := by
  by_contra hlt
  rw [List.drop_eq_nil_of_le (by omega)] at h
  exact h rfl

theorem NameAt.le_length {text : List Char} {p : Nat} {name : String} (h : NameAt text p name) :
    p ≤ text.length := by
  refine le_length_of_takeWhile (q := isNameChar) fun hnil => h.nonempty ?_
  rw [← String.toList_inj, ← h.letters, hnil]
  rfl

theorem LongRunAt.le_length {text : List Char} {p : Nat} {first : String}
    (h : LongRunAt text p first) : p ≤ text.length := by
  refine le_length_of_takeWhile (q := Char.isDigit) fun hnil => ?_
  have hlong := h.long
  rw [hnil] at hlong
  exact Nat.not_lt_zero _ hlong

/-- An error that points into a text has a position within its bounds. -/
theorem SyntaxError.PointsInto.exists_position {s : Scope} {text : List Char} {e : SyntaxError}
    (h : e.PointsInto s text) (hdeep : e ≠ .tooDeep) :
    ∃ p, e.position? = some p ∧ p ≤ text.length := by
  cases e with
  | unidentified c p => exact ⟨p, rfl, le_length_of_getElem? h⟩
  | unexpected c p => exact ⟨p, rfl, le_length_of_getElem? h⟩
  | unexpectedEnd p => exact ⟨p, rfl, Nat.le_of_eq h⟩
  | extraClose p => exact ⟨p, rfl, le_length_of_getElem? h⟩
  | missingClose p => exact ⟨p, rfl, le_length_of_getElem? h⟩
  | unclosedCall p =>
    obtain ⟨rest, hopen, rfl⟩ := h
    obtain ⟨before, name, opening, params, -, -, -, -, hall, -⟩ := hopen
    cases rest with
    | nil => exact ⟨text.length, rfl, Nat.le_refl _⟩
    | cons t rest =>
      have hsuffix : t :: rest <:+ tokens text := hall ▸ List.suffix_append _ _
      exact ⟨t.start, rfl, le_length_of_getElem? (standsIn_of_suffix hsuffix).getElem?⟩
  | divisionByZero p => exact ⟨p, rfl, le_length_of_getElem? h⟩
  | numeralTooLong ds p => exact ⟨p, rfl, LongRunAt.le_length h⟩
  | notCallable name p => exact ⟨p, rfl, NameAt.le_length h⟩
  | unsupportedOperator name p => exact ⟨p, rfl, NameAt.le_length h⟩
  | tooDeep => exact absurd rfl hdeep

/-- A text that cannot be read, but for its nesting, has an error with a position in the text or at
its end, and what the error complains about stands there. -/
theorem Scope.pointsInto_of_read (s : Scope) (text : String) (e : SyntaxError)
    (hread : s.read text = .error e) (hdeep : e ≠ .tooDeep) :
    (∃ p, e.position? = some p ∧ p ≤ text.length) ∧ e.PointsInto s text.toList := by
  have hpoints := pointsInto_of_readWithin hread
  refine ⟨?_, hpoints⟩
  rw [← String.length_toList]
  exact hpoints.exists_position hdeep

/-- The call is not closed where `x` stands. -/
theorem Scope.pointsInto_of_read_unclosedCall :
    ((Registry.fresh 0).scope 0).read "ADD(1, 2 x)" = .error (.unclosedCall 9) ∧
      (∃ p, (SyntaxError.unclosedCall 9).position? = some p ∧ p ≤ "ADD(1, 2 x)".length) ∧
      (SyntaxError.unclosedCall 9).PointsInto ((Registry.fresh 0).scope 0)
        "ADD(1, 2 x)".toList := by
  have hread : ((Registry.fresh 0).scope 0).read "ADD(1, 2 x)" = .error (.unclosedCall 9) :=
    eq_error_of_map (by decide +kernel)
  exact ⟨hread, pointsInto_of_read _ _ _ hread (by simp)⟩

end Reckoner
