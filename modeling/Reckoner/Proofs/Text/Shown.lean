import Reckoner.Proofs.Text.Layout

/-!
# What shows in a text

Parentheses are balanced in every text, so a mark inside of an operand that is in parentheses is
inside of parentheses in the whole text as well. An equation that is not part of a chain around
everything else shows as an equals sign inside of parentheses, and a zero that is divided by shows
as a zero between a slash and the end of the divisor.
-/

namespace Reckoner

open Grammar

variable {s : Scope}

/-! ## Numbers and names -/

theorem textLevel_decimalNat (n : ℕ) : textLevel (decimalNat n) = 0 :=
  sum_charLevel_eq_zero fun _ hc => charLevel_of_isDigit (isDigit_of_mem_decimalNat hc)

theorem textLevel_decimalInt (n : ℤ) : textLevel (decimalInt n) = 0 := by
  have hminus : textLevel "-" = 0 := rfl
  unfold decimalInt
  split_ifs
  · rw [textLevel_append, hminus, textLevel_decimalNat, add_zero]
  · exact textLevel_decimalNat _

theorem textLevel_of_isName {name : String} (h : IsName name.toList) : textLevel name = 0 :=
  sum_charLevel_eq_zero fun _ hc => charLevel_of_isNameChar (h.2 _ hc)

namespace Expr

theorem inked_decimalNat (n : ℕ) : Inked (decimalNat n) := by
  obtain ⟨c, cs, hcs⟩ := List.exists_cons_of_ne_nil (Nat.toDigits_ne_nil (n := n) (b := 10))
  have hc : c ∈ (decimalNat n).toList := by
    rw [decimalNat, Nat.toList_repr, hcs]
    exact List.mem_cons_self
  refine ⟨c, hc, ?_⟩
  rintro rfl
  cases isDigit_of_mem_decimalNat hc

theorem inked_decimalInt (n : ℤ) : Inked (decimalInt n) := by
  unfold decimalInt
  split_ifs
  · exact (inked_decimalNat _).append_left "-"
  · exact inked_decimalNat _

theorem inked_of_isName {name : String} (h : IsName name.toList) : Inked name := by
  obtain ⟨⟨c, hc, halpha⟩, -⟩ := h
  refine ⟨c, List.mem_of_mem_head? hc, ?_⟩
  rintro rfl
  cases halpha

/-! ## Every text -/

theorem inked_text {e : Expr} (he : e.MadeOf s.writable) : Inked e.text := by
  induction e using Expr.induction with
  | num n =>
    have hexact := madeOf_num.1 he
    show Inked n.text
    cases n with
    | integer m => exact inked_decimalInt m
    | fraction q => exact ((inked_decimalInt _).append_right "/").append_right _
    | unit => exact inked_decimalInt 1
    | double x => cases hexact
  | sym name role => exact inked_of_isName (madeOf_sym.1 he).1
  | app op ps ih =>
    have hps := (madeOf_app.1 he).2
    have hinked : ∀ p ∈ ps, Inked p.text := fun p hp => ih p hp (hps p hp)
    rw [text_app he hinked]
    split_ifs with hcall
    · have hparen : Inked "(" := ⟨'(', by simp, by simp⟩
      exact ((hparen.append_left _).append_right _).append_right _
    · obtain ⟨i, is, hlayout, hi⟩ := head_layout (by simpa using hcall)
      rw [hlayout, itemsText]
      refine Inked.append_right (Inked.append_left ?_ _) _
      unfold Item.body
      split_ifs
      · exact ((hinked _ hi).append_left _).append_right _
      · exact hinked _ hi

theorem textLevel_name {op : Operator} (h : op.IsBuiltIn) : textLevel op.name = 0 :=
  textLevel_of_isName h.isName_name

/-! ## Operands and what is around them -/

/-- What stands in the text before an operand. -/
def Item.opening (i : Item) : String := i.mark ++ if i.grouped then "(" else ""

/-- What closes an operand. -/
def Item.closing (i : Item) : String := if i.grouped then ")" else ""

theorem Item.text_eq (i : Item) : i.text = i.opening ++ i.operand.text ++ i.closing := by
  unfold text body opening closing
  split_ifs <;> simp [String.append_assoc]

theorem Item.textLevel_opening {i : Item} (h : textLevel i.mark = 0) :
    textLevel i.opening = if i.grouped then 1 else 0 := by
  have hopen : textLevel "(" = 1 := rfl
  unfold opening
  split_ifs
  · rw [textLevel_append, h, hopen, zero_add]
  · rw [String.append_empty, h]

theorem Item.textLevel_text {i : Item} (h : textLevel i.mark = 0)
    (hoperand : textLevel i.operand.text = 0) : textLevel i.text = 0 := by
  have hclosing : textLevel i.closing = if i.grouped then -1 else 0 := by
    unfold closing
    split_ifs <;> rfl
  rw [text_eq, textLevel_append, textLevel_append, textLevel_opening h, hoperand, hclosing]
  split_ifs <;> rfl

theorem textLevel_itemsText {is : List Item} (h : ∀ i ∈ is, textLevel i.text = 0) :
    textLevel (itemsText is) = 0 := by
  induction is with
  | nil => rfl
  | cons i is ih =>
    rw [itemsText, textLevel_append, h i (by simp), ih fun j hj => h j (by simp [hj]), add_zero]

theorem Item.endsDivisor_closing (i : Item) : EndsDivisor i.closing := by
  unfold closing
  split_ifs
  · exact endsDivisor_of_toList (k := .closing) rfl (by decide) (by decide)
  · exact endsDivisor_empty

theorem endsDivisor_itemsText {is : List Item} (h : ∀ i ∈ is, EndsDivisor i.text) :
    EndsDivisor (itemsText is) := by
  induction is with
  | nil => exact endsDivisor_empty
  | cons i is ih => exact (h i (by simp)).append (ih fun j hj => h j (by simp [hj]))

/-- Where an item stands among others. -/
theorem exists_itemsText_eq {is : List Item} {i : Item} (hi : i ∈ is)
    (hlevel : ∀ j ∈ is, textLevel j.text = 0) (hends : ∀ j ∈ is.tail, EndsDivisor j.text) :
    ∃ u v, itemsText is = u ++ i.text ++ v ∧ textLevel u = 0 ∧ EndsDivisor v := by
  induction is with
  | nil => cases hi
  | cons j is ih =>
    rcases List.mem_cons.1 hi with rfl | hi
    · exact ⟨"", itemsText is, by rw [itemsText, String.empty_append], rfl,
        endsDivisor_itemsText hends⟩
    · obtain ⟨u, v, htext, hu, hv⟩ := ih hi (fun k hk => hlevel k (by simp [hk]))
        fun k hk => hends k (List.mem_of_mem_tail hk)
      refine ⟨j.text ++ u, v, by rw [itemsText, htext]; simp [String.append_assoc], ?_, hv⟩
      rw [textLevel_append, hlevel j (by simp), hu, add_zero]

/-- Parentheses are balanced. -/
theorem textLevel_text {e : Expr} (he : e.MadeOf s.writable) : textLevel e.text = 0 := by
  have hopen : textLevel "(" = 1 := rfl
  have hclose : textLevel ")" = -1 := rfl
  induction e using operand_induction with
  | num n =>
    have hexact := madeOf_num.1 he
    show textLevel n.text = 0
    cases n with
    | integer m => exact textLevel_decimalInt m
    | fraction q =>
      have hslash : textLevel "/" = 0 := rfl
      simp [Number.text, textLevel_decimalInt, textLevel_decimalNat, hslash]
    | unit => exact textLevel_decimalInt 1
    | double x => cases hexact
  | sym name role => exact textLevel_of_isName (madeOf_sym.1 he).1
  | app op ps ih =>
    obtain ⟨⟨hop, -⟩, hps⟩ := madeOf_app.1 he
    have hitems : textLevel (itemsText (layout op ps)) = 0 := textLevel_itemsText fun i hi => by
      obtain ⟨⟨p, hp, hip⟩, hmark, -⟩ := fits_of_mem_layout hop hi
      exact i.textLevel_text hmark (ih p hp _ hip (hip.madeOf (hps p hp)))
    rw [text_app he fun p hp => inked_text (hps p hp)]
    split_ifs
    · simp [textLevel_name hop, hopen, hclose, hitems]
    · exact hitems

theorem textLevel_of_mem_layout {op : Operator} {ps : List Expr}
    (he : (Expr.app op ps).MadeOf s.writable) {i : Item} (hi : i ∈ layout op ps) :
    textLevel i.text = 0 := by
  obtain ⟨⟨hop, -⟩, hps⟩ := madeOf_app.1 he
  obtain ⟨⟨p, hp, hip⟩, hmark, -⟩ := fits_of_mem_layout hop hi
  exact i.textLevel_text hmark (textLevel_text (hip.madeOf (hps p hp)))

theorem textLevel_opening_of_mem_layout {op : Operator} {ps : List Expr} (hop : op.IsBuiltIn)
    {i : Item} (hi : i ∈ layout op ps) : textLevel i.opening = if i.grouped then 1 else 0 :=
  i.textLevel_opening (fits_of_mem_layout hop hi).mark

/-! ## Operands in the text of an application -/

/-- The text of `e` is that of its operand `q` between `u` and `v`. -/
structure ShownIn (q e : Expr) (u v : String) : Prop where
  text : e.text = u ++ q.text ++ v
  level : 0 ≤ textLevel u
  /-- What binds more loosely than a sum is inside of parentheses. -/
  inside : e.isEquation = false → q.precedence < Operator.add.precedence → 1 ≤ textLevel u
  /-- A divisor ends after the operand, unless that is the base of a power. -/
  ends : EndsDivisor v ∨ Operator.power.precedence ≤ q.precedence ∧ Stands v.toList
  /-- Something follows the operand of a power. -/
  followed : Operator.power.precedence ≤ e.precedence → lexemes v.toList ≠ []

theorem lexemes_append_ne_nil {u v : String} (hv : Stands v.toList) (h : lexemes v.toList ≠ []) :
    lexemes (u ++ v).toList ≠ [] := by
  rw [String.toList_append, lexemes_append hv]
  exact fun hnil => h (List.append_eq_nil_iff.1 hnil).2

theorem lexemes_ne_nil_of_toList {k : LexemeKind} {c : Char} {t : String} {cs : List Char}
    (ht : t.toList = c :: cs) (hk : k.IsMark c) : lexemes t.toList ≠ [] := by
  rw [ht, hk.lexemes]
  exact List.cons_ne_nil _ _

theorem precedence_app_le {op : Operator} {ps : List Expr}
    (h : (Expr.app op ps).MadeOf s.writable) :
    (Expr.app op ps).precedence ≤ Operator.power.precedence := by
  obtain ⟨⟨hop, -⟩, -⟩ := madeOf_app.1 h
  rcases hop with (rfl | rfl | rfl) | ⟨id, rfl⟩ <;> simp [precedence, Operator.precedence]

theorem textLevel_operandText (precedence : Nat) (strict : Bool) (e : Expr) (t : String) :
    textLevel (operandText precedence strict e t) = textLevel t := by
  have hopen : textLevel "(" = 1 := rfl
  have hclose : textLevel ")" = -1 := rfl
  unfold operandText
  split_ifs
  · simp [hopen, hclose]
  · rfl

theorem operandText_of_lt {precedence : Nat} {e : Expr} (h : e.precedence < precedence)
    (strict : Bool) (t : String) : operandText precedence strict e t = "(" ++ t ++ ")" :=
  if_pos (by simp [h])

theorem operandText_of_le {precedence : Nat} {e : Expr} (h : precedence ≤ e.precedence)
    (t : String) : operandText precedence false e t = t :=
  if_neg (by simp [h])

theorem operandText_strict {precedence : Nat} {e : Expr} (h : e.precedence ≤ precedence)
    (t : String) : operandText precedence true e t = "(" ++ t ++ ")" :=
  if_pos (by simpa using Nat.lt_or_eq_of_le h)

/-- The base of a power has the caret after it if it is not in parentheses. -/
theorem exists_shownIn_base (b x : Expr) : ∃ u v, b.ShownIn (.app .power [b, x]) u v := by
  have htext := text_power b x
  have hclosing : LexemeKind.closing.IsMark ')' := by decide
  have hcaret : LexemeKind.caret.IsMark '^' := by decide
  rw [operand_piece] at htext
  generalize x.piece.operand Operator.power.precedence true = t at htext
  by_cases hlt : b.precedence < Operator.power.precedence
  · refine ⟨"(", ")" ++ ("^" ++ t), ?_, by decide, fun _ _ => by decide, .inl ?_, fun _ => ?_⟩
    · rw [htext, operandText_of_lt hlt]
      simp only [String.append_assoc]
    · exact endsDivisor_mark (by rfl) hclosing (by decide) _
    · exact lexemes_ne_nil_of_toList (String.toList_append ..) hclosing
  · have hle := Nat.not_lt.1 hlt
    refine ⟨"", "^" ++ t, ?_, le_rfl, fun _ hadd => ?_, .inr ⟨hle, ?_⟩, fun _ => ?_⟩
    · rw [htext, operandText_of_le hle, String.empty_append]
    · exact absurd (hadd.trans (by decide)) hlt
    · rw [String.toList_append]
      exact hcaret.stands _
    · exact lexemes_ne_nil_of_toList (String.toList_append ..) hcaret

/-- The exponent of a power is in parentheses unless it is a single term. -/
theorem exists_shownIn_exponent {b x : Expr} (hb : b.MadeOf s.writable)
    (hx : x.precedence ≤ Operator.power.precedence) :
    ∃ u v, x.ShownIn (.app .power [b, x]) u v := by
  have hclosing : LexemeKind.closing.IsMark ')' := by decide
  have hopen : textLevel "^(" = 1 := rfl
  have hlevel : textLevel (operandText Operator.power.precedence false b b.text ++ "^(") = 1 := by
    rw [textLevel_append, textLevel_operandText, textLevel_text hb, hopen, zero_add]
  refine ⟨operandText Operator.power.precedence false b b.text ++ "^(", ")", ?_, ?_, fun _ _ => ?_,
    .inl (endsDivisor_of_toList rfl hclosing (by decide)),
    fun _ => lexemes_ne_nil_of_toList rfl hclosing⟩
  · have hmark : "^(" = "^" ++ "(" := rfl
    rw [text_power, operand_piece, operand_piece, operandText_strict hx, hmark]
    simp only [String.append_assoc]
  · omega
  · omega

section Layout

variable {op : Operator} {ps : List Expr} {i : Item}

/-- The parentheses of a call are around all of its operands. -/
theorem exists_shownIn_call (he : (Expr.app op ps).MadeOf s.writable) (hcall : isCall op ps = true)
    (hi : i ∈ layout op ps) : ∃ u v, i.operand.ShownIn (.app op ps) u v := by
  obtain ⟨⟨hop, -⟩, hps⟩ := madeOf_app.1 he
  have htext := text_app he fun p hp => inked_text (hps p hp)
  obtain ⟨u, v, hitems, hu, hv⟩ := exists_itemsText_eq hi
    (fun j hj => textLevel_of_mem_layout he hj)
    fun j hj => endsDivisor_of_mem_tail hj fun _ => hcall
  have hopen : textLevel "(" = 1 := rfl
  have hclose : EndsDivisor ")" := endsDivisor_of_toList (k := .closing) rfl (by decide) (by decide)
  have hlevel : 1 ≤ textLevel (op.name ++ "(" ++ u ++ i.opening) := by
    have hopening := textLevel_opening_of_mem_layout hop hi
    simp only [textLevel_append, textLevel_name hop, hopen, hu, hopening]
    split_ifs <;> decide
  rw [if_pos hcall, hitems, i.text_eq] at htext
  refine ⟨op.name ++ "(" ++ u ++ i.opening, i.closing ++ v ++ ")", ?_, by omega,
    fun _ _ => hlevel, .inl ((i.endsDivisor_closing.append hv).append hclose), fun _ => ?_⟩
  · rw [htext]
    simp only [String.append_assoc]
  · exact lexemes_append_ne_nil hclose.stands
      (lexemes_ne_nil_of_toList (k := .closing) rfl (by decide))

/-- The operands of other operators than powers are in parentheses if they have to be. -/
theorem exists_shownIn_infix (he : (Expr.app op ps).MadeOf s.writable)
    (hcall : isCall op ps = false) (hpower : op ≠ .power) (hi : i ∈ layout op ps) :
    ∃ u v, i.operand.ShownIn (.app op ps) u v := by
  obtain ⟨⟨hop, -⟩, hps⟩ := madeOf_app.1 he
  have htext := text_app he fun p hp => inked_text (hps p hp)
  have hopening := textLevel_opening_of_mem_layout hop hi
  obtain ⟨-, -, hgrouped⟩ := fits_of_mem_layout hop hi
  obtain ⟨u, v, hitems, hu, hv⟩ := exists_itemsText_eq hi
    (fun j hj => textLevel_of_mem_layout he hj) fun j hj => endsDivisor_of_mem_tail hj
      fun h => absurd h hpower
  rw [if_neg (by simp [hcall]), hitems, i.text_eq] at htext
  refine ⟨u ++ i.opening, i.closing ++ v, ?_, ?_, fun hequation hlt => ?_,
    .inl (i.endsDivisor_closing.append hv), fun hprec => ?_⟩
  · rw [htext]
    simp only [String.append_assoc]
  · rw [textLevel_append, hu, hopening]
    split_ifs <;> decide
  · rw [textLevel_append, hu, hopening, if_pos (hgrouped hcall hequation hlt)]
    decide
  · -- only powers bind as tightly as that
    rcases hop with (rfl | rfl | rfl) | ⟨id, rfl⟩
    · simp [precedence, Operator.precedence] at hprec
    · simp [precedence, Operator.precedence] at hprec
    · exact absurd rfl hpower
    · simp [precedence, Operator.precedence] at hprec

/-- Every parameter that is an application shows in the text, or what it is the reciprocal of does.
-/
theorem exists_shownIn {op' : Operator} {qs : List Expr} (he : (Expr.app op ps).MadeOf s.writable)
    (hp : .app op' qs ∈ ps) :
    ∃ q u v, StandsFor op q (.app op' qs) ∧ q.ShownIn (.app op ps) u v := by
  have hps := (madeOf_app.1 he).2
  obtain ⟨i, hi, hstands⟩ : ∃ i ∈ layout op ps, StandsFor op i.operand (.app op' qs) :=
    exists_mem_layout hp rfl
  by_cases hcall : isCall op ps = true
  · obtain ⟨u, v, hshown⟩ := exists_shownIn_call he hcall hi
    exact ⟨_, u, v, hstands, hshown⟩
  by_cases hpower : op = .power
  · subst hpower
    obtain ⟨b, x, rfl⟩ := exists_pair_of_isCall_power (by simpa using hcall)
    rcases List.mem_pair.1 hp with rfl | rfl
    · obtain ⟨u, v, hshown⟩ := exists_shownIn_base (.app op' qs) x
      exact ⟨_, u, v, .inl rfl, hshown⟩
    · obtain ⟨u, v, hshown⟩ :=
        exists_shownIn_exponent (hps b (by simp)) (precedence_app_le (hps _ hp))
      exact ⟨_, u, v, .inl rfl, hshown⟩
  · obtain ⟨u, v, hshown⟩ := exists_shownIn_infix he (by simpa using hcall) hpower hi
    exact ⟨_, u, v, hstands, hshown⟩

/-- A property of nodes that all reciprocals have, and that a part of an application lacks, is
lacking in an operand that shows in the text. -/
theorem exists_shownIn_of_not_everyNode {P : Operator → List Expr → Prop}
    (he : (Expr.app op ps).MadeOf s.writable)
    (hreciprocal : ∀ op b, op.name = Operator.power.name → P op [b, .num (.integer (-1))])
    (hnode : P op ps) (h : ¬(Expr.app op ps).EveryNode P) :
    ∃ p ∈ ps, ∃ q u v, StandsFor op q p ∧ q.ShownIn (.app op ps) u v ∧ ¬q.EveryNode P := by
  obtain ⟨p, hp, hfails⟩ : ∃ p ∈ ps, ¬p.EveryNode P := by
    by_contra hall
    push Not at hall
    exact h (everyNode_app.2 ⟨hnode, hall⟩)
  cases p with
  | num n => exact absurd everyNode_num hfails
  | sym name role => exact absurd everyNode_sym hfails
  | app op' qs =>
    obtain ⟨q, u, v, hstands, hshown⟩ := exists_shownIn he hp
    refine ⟨_, hp, q, u, v, hstands, hshown, fun hq => hfails ?_⟩
    rcases hstands with rfl | ⟨-, hbase⟩
    · exact hq
    · obtain ⟨op'', hname, heq⟩ := exists_power_of_reciprocalBase? hbase
      rw [heq]
      exact everyNode_app.2 ⟨hreciprocal op'' q hname, by simp [hq]⟩

end Layout

/-! ## Equations -/

theorem isEquation_of_name_eq_power {op : Operator} (h : op.name = Operator.power.name)
    (ps : List Expr) : (Expr.app op ps).isEquation = false := by
  cases op with
  | define id => simp [Operator.name] at h
  | _ => rfl

/-- The first equals sign of an equation. -/
theorem exists_equals {e : Expr} (he : e.MadeOf s.writable) (h : e.isEquation = true) :
    ∃ u v, e.text = u ++ ("=" ++ v) ∧ textLevel u = 0 := by
  cases e with
  | num n => cases h
  | sym name role => cases h
  | app op ps =>
    obtain ⟨-, hps⟩ := madeOf_app.1 he
    obtain ⟨id, p, q, ps, rfl, rfl⟩ := isEquation_iff.1 h
    refine ⟨p.text, "=".intercalate ((q :: ps).map text), ?_, textLevel_text (hps p (by simp))⟩
    rw [text_equation hps, List.map_cons, List.map_cons, String.intercalate_cons_cons,
      ← List.map_cons, String.append_assoc]

theorem precedence_of_isEquation {e : Expr} (h : e.isEquation = true) :
    e.precedence < Operator.add.precedence := by
  cases e with
  | num n => cases h
  | sym name role => cases h
  | app op ps =>
    obtain ⟨id, p, q, ps, rfl, rfl⟩ := isEquation_iff.1 h
    simp [precedence, Operator.precedence]

theorem ShownIn.trans_equals {q e : Expr} {u v : String} (h : q.ShownIn e u v)
    (hq : ∃ u' v', q.text = u' ++ ("=" ++ v') ∧ 1 ≤ textLevel u + textLevel u') :
    ∃ u' v', e.text = u' ++ ("=" ++ v') ∧ 1 ≤ textLevel u' := by
  obtain ⟨u', v', htext, hlevel⟩ := hq
  refine ⟨u ++ u', v' ++ v, ?_, by rwa [textLevel_append]⟩
  rw [h.text, htext]
  simp only [String.append_assoc]

/-- If there is an equation elsewhere than in a chain around everything else, then there is one in
an operand that shows in the text, or an operand in parentheses is one. -/
theorem exists_shownIn_of_equationsOutside_eq_false {op : Operator} {ps : List Expr}
    (he : (Expr.app op ps).MadeOf s.writable) (h : (Expr.app op ps).equationsOutside = false) :
    ∃ p ∈ ps, ∃ q u v, StandsFor op q p ∧ q.ShownIn (.app op ps) u v ∧
      (q.equationsOutside = false ∨ q.isEquation = true ∧ 1 ≤ textLevel u) := by
  by_cases hequation : (Expr.app op ps).isEquation = true
  · obtain ⟨p, hp, hout⟩ : ∃ p ∈ ps, p.equationsOutside = false := by
      by_contra hall
      push Not at hall
      rw [(equationsOutside_of_isEquation hequation).2 (by simpa using hall)] at h
      cases h
    cases p with
    | num n => cases hout
    | sym name role => cases hout
    | app op' qs =>
      obtain ⟨q, u, v, hstands, hshown⟩ := exists_shownIn he hp
      obtain ⟨id, -, -, -, rfl, -⟩ := isEquation_iff.1 hequation
      obtain rfl : q = .app op' qs := by simpa [StandsFor] using hstands
      exact ⟨_, hp, _, u, v, hstands, hshown, .inl hout⟩
  · -- inside of anything but an equation, an equation stands in parentheses or deeper inside
    have hequation' : (Expr.app op ps).isEquation = false := by simpa using hequation
    have hfree : ¬(Expr.app op ps).EquationFree := fun hfree => by
      rw [hfree.equationsOutside] at h
      cases h
    obtain ⟨p, hp, q, u, v, hstands, hshown, hq⟩ := exists_shownIn_of_not_everyNode he
      (fun _ _ hname => isEquation_of_name_eq_power hname _) hequation' hfree
    refine ⟨p, hp, q, u, v, hstands, hshown, ?_⟩
    by_cases hqequation : q.isEquation = true
    · exact .inr ⟨hqequation, hshown.inside hequation' (precedence_of_isEquation hqequation)⟩
    · refine .inl (Bool.eq_false_iff.2 fun hout => hq ?_)
      exact (equationsOutside_of_isEquation_eq_false (by simpa using hqequation)).1 hout

/-- An equation elsewhere than in a chain around everything else has its equals sign inside of
parentheses. -/
theorem exists_equals_inside {e : Expr} (he : e.MadeOf s.writable)
    (h : e.equationsOutside = false) :
    ∃ u v, e.text = u ++ ("=" ++ v) ∧ 1 ≤ textLevel u := by
  induction e using operand_induction with
  | num n => cases h
  | sym name role => cases h
  | app op ps ih =>
    obtain ⟨p, hp, q, u, v, hstands, hshown, hq⟩ :=
      exists_shownIn_of_equationsOutside_eq_false he h
    have hmade := hstands.madeOf ((madeOf_app.1 he).2 p hp)
    have hlevel := hshown.level
    rcases hq with hout | ⟨hequation, hinside⟩
    · obtain ⟨u', v', htext, hlevel'⟩ := ih p hp q hstands hmade hout
      exact hshown.trans_equals ⟨u', v', htext, by omega⟩
    · obtain ⟨u', v', htext, hlevel'⟩ := exists_equals hmade hequation
      exact hshown.trans_equals ⟨u', v', htext, by omega⟩

/-! ## Divisions by zero -/

theorem ShownIn.stands {q e : Expr} {u v : String} (h : q.ShownIn e u v) : Stands v.toList :=
  h.ends.elim EndsDivisor.stands And.right

theorem mem_layout_of_mem_writtenDivisors {d : Expr} {ps : List Expr}
    (h : d ∈ writtenDivisors ps) :
    isCall .multiply ps = false ∧
      Item.of "/" Operator.multiply.precedence true d ∈ layout .multiply ps := by
  match ps, h with
  | p :: q :: ps, h =>
    refine ⟨rfl, ?_⟩
    rw [writtenDivisors] at h
    rw [layout]
    split_ifs at h ⊢
    · exact List.mem_cons_of_mem _ (mem_factorItems_of_mem_divisorsAfter h)
    · exact List.mem_cons_of_mem _ (mem_factorItems_of_mem_divisorsAfter h)

/-- The zero `d` stands after a slash in the text, and the divisor ends there. -/
structure DividesBy (s : Scope) (e d : Expr) (u v : String) : Prop where
  text : e.text = u ++ ("/" ++ (operandText Operator.multiply.precedence true d d.text ++ v))
  made : d.MadeOf s.writable
  zero : d.isZero = true
  ends : EndsDivisor v
  /-- Something follows it in a power. -/
  followed : Operator.power.precedence ≤ e.precedence → lexemes v.toList ≠ []

theorem DividesBy.trans {q e d : Expr} {u u' v v' : String} (h : DividesBy s q d u' v')
    (hshown : q.ShownIn e u v) : DividesBy s e d (u ++ u') (v' ++ v) where
  text := by
    rw [hshown.text, h.text]
    simp only [String.append_assoc]
  made := h.made
  zero := h.zero
  ends := by
    rcases hshown.ends with hv | ⟨hprec, hv⟩
    · exact h.ends.append hv
    · exact h.ends.append_of_ne_nil (h.followed hprec) hv
  followed hprec := lexemes_append_ne_nil hshown.stands (hshown.followed hprec)

/-- A divisor of a product stands after a slash. -/
theorem exists_dividesBy_of_mem_writtenDivisors {ps : List Expr} {d : Expr}
    (he : (Expr.app .multiply ps).MadeOf s.writable) (hmem : d ∈ writtenDivisors ps)
    (hd : d.isZero = true) : ∃ u v, DividesBy s (.app .multiply ps) d u v := by
  have hps := (madeOf_app.1 he).2
  obtain ⟨hcall, hi⟩ := mem_layout_of_mem_writtenDivisors hmem
  obtain ⟨u, v, hitems, -, hends⟩ := exists_itemsText_eq hi
    (fun j hj => textLevel_of_mem_layout he hj)
    fun j hj => endsDivisor_of_mem_tail hj fun hop => by cases hop
  have htext := text_app he fun p hp => inked_text (hps p hp)
  rw [hcall, if_neg (by simp), hitems, Item.text_of] at htext
  obtain ⟨p, hp, hbase⟩ := exists_reciprocal_of_mem_writtenDivisors hmem
  have hstands : StandsFor .multiply d p := .inr ⟨rfl, hbase⟩
  refine ⟨u, v, ?_, hstands.madeOf (hps p hp), hd, hends, fun hprec => ?_⟩
  · rw [htext]
    simp only [String.append_assoc]
  · simp [precedence, Operator.precedence] at hprec

/-- A zero that is divided by stands after a slash. -/
theorem exists_dividesBy {e : Expr} (he : e.MadeOf s.writable) (h : ¬e.NoZeroDivisor) :
    ∃ d u v, DividesBy s e d u v := by
  induction e using operand_induction with
  | num n => exact absurd everyNode_num h
  | sym name role => exact absurd everyNode_sym h
  | app op ps ih =>
    by_cases hnode : op = .multiply → ∀ d ∈ writtenDivisors ps, d.isZero = false
    · obtain ⟨p, hp, q, u, v, hstands, hshown, hq⟩ := exists_shownIn_of_not_everyNode he
        (fun op _ hname hop => by subst hop; simp [Operator.name] at hname) hnode h
      have hmade := hstands.madeOf ((madeOf_app.1 he).2 p hp)
      obtain ⟨d, u', v', hdivides⟩ := ih p hp q hstands hmade hq
      exact ⟨d, _, _, hdivides.trans hshown⟩
    · push Not at hnode
      obtain ⟨rfl, d, hmem, hd⟩ := hnode
      obtain ⟨u, v, hdivides⟩ := exists_dividesBy_of_mem_writtenDivisors he hmem (by simpa using hd)
      exact ⟨d, u, v, hdivides⟩

end Expr

end Reckoner
