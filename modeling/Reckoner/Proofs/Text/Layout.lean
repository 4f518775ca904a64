import Reckoner.Proofs.Text.Equation
import Reckoner.Proofs.Text.Level

/-!
# How the text of an application is laid out

The text of an application is the texts of its operands in a row, each after a mark and perhaps in
parentheses, and a call has its name and parentheses around them. An operand is a parameter, or the
base of a parameter that is a reciprocal and stands after a slash. What has to be known about all
texts is proved from the layout, without looking at how the text is made.
-/

namespace Reckoner

open Grammar

variable {s : Scope}

namespace Expr

/-! ## Items -/

/-- An operand in a text. -/
structure Item where
  /-- What stands before it. -/
  mark : String
  /-- The operand. -/
  operand : Expr
  /-- It is put in parentheses. -/
  grouped : Bool

/-- An operand of an operator that binds with `precedence`. -/
def Item.of (mark : String) (precedence : Nat) (strict : Bool) (e : Expr) : Item :=
  ⟨mark, e, e.precedence < precedence || (strict && e.precedence == precedence)⟩

/-- The operand with its parentheses. -/
def Item.body (i : Item) : String :=
  if i.grouped then "(" ++ i.operand.text ++ ")" else i.operand.text

/-- The operand with its mark. -/
def Item.text (i : Item) : String := i.mark ++ i.body

@[simp] theorem Item.mark_of (mark : String) (precedence : Nat) (strict : Bool) (e : Expr) :
    (Item.of mark precedence strict e).mark = mark := rfl

@[simp] theorem Item.operand_of (mark : String) (precedence : Nat) (strict : Bool) (e : Expr) :
    (Item.of mark precedence strict e).operand = e := rfl

@[simp] theorem Item.text_of (mark : String) (precedence : Nat) (strict : Bool) (e : Expr) :
    (Item.of mark precedence strict e).text = mark ++ operandText precedence strict e e.text := by
  rfl

theorem operand_piece (e : Expr) (precedence : Nat) (strict : Bool) :
    e.piece.operand precedence strict = operandText precedence strict e e.text := by
  rw [Piece.operand, node_piece, text]

/-- The operands one after the other. -/
def itemsText : List Item → String
  | [] => ""
  | i :: is => i.text ++ itemsText is

/-! ## Layouts -/

/-- Operands with the marks that they have themselves, the first one without. -/
def series (mark : Expr → String) (precedence : Nat) : List Expr → List Item
  | [] => []
  | p :: ps => .of "" precedence false p :: ps.map fun x => .of (mark x) precedence false x

/-- The mark of a term that is not the first one. -/
def termMark (p : Expr) : String :=
  if (p.piece.operand Operator.add.precedence false).toList.head? = some '-' then "" else "+"

/-- The factors after `before`. -/
def factorItems (before : Expr) : List Expr → List Item
  | [] => []
  | p :: ps =>
    (match p.reciprocalBase? with
    | some base =>
      if readsAsRatio before base (ps.map piece) then
        .of "*" Operator.multiply.precedence false p
      else .of "/" Operator.multiply.precedence true base
    | none => .of "*" Operator.multiply.precedence false p) :: factorItems p ps

/-- A first factor; a number stands as it is. -/
def firstItem (p : Expr) : Item :=
  if p.isNumber then ⟨"", p, false⟩ else .of "" Operator.multiply.precedence false p

/-- The operands in the text of an application. -/
def layout : Operator → List Expr → List Item
  | .add, p :: q :: ps => series termMark Operator.add.precedence (p :: q :: ps)
  | .multiply, p :: q :: ps =>
    if p.same (.num .minusOne) && !q.isNumber then
      .of "-" Operator.multiply.precedence false q :: factorItems q ps
    else firstItem p :: factorItems p (q :: ps)
  | .power, [b, x] =>
    [.of "" Operator.power.precedence false b, .of "^" Operator.power.precedence true x]
  | .define id, p :: q :: ps =>
    series (fun _ => "=") (Operator.define id).precedence (p :: q :: ps)
  | _, ps => series (fun _ => ",") 0 ps

/-- The application is written as a call. -/
def isCall (op : Operator) (ps : List Expr) : Bool :=
  match op, ps with
  | _, [] => true
  | _, [_] => true
  | .power, ps => ps.length != 2
  | _, _ => false

/-- A power that is no call has a base and an exponent. -/
theorem exists_pair_of_isCall_power {ps : List Expr} (h : isCall .power ps = false) :
    ∃ b x, ps = [b, x] := by
  match ps, h with
  | [b, x], _ => exact ⟨b, x, rfl⟩
  | _ :: _ :: _ :: _, h => simp [isCall] at h

/-- There is something in the text besides minus signs. -/
def Inked (t : String) : Prop := ∃ c ∈ t.toList, c ≠ '-'

theorem Inked.append_left {t : String} (h : Inked t) (u : String) : Inked (u ++ t) := by
  obtain ⟨c, hc, hne⟩ := h
  exact ⟨c, by simp [hc], hne⟩

theorem Inked.append_right {t : String} (h : Inked t) (u : String) : Inked (t ++ u) := by
  obtain ⟨c, hc, hne⟩ := h
  exact ⟨c, by simp [hc], hne⟩

theorem Inked.operandText {t : String} (h : Inked t) (precedence : Nat) (strict : Bool) (e : Expr) :
    Inked (operandText precedence strict e t) := by
  unfold Expr.operandText
  split_ifs
  · exact (h.append_left "(").append_right ")"
  · exact h

/-- A text with ink is neither empty nor a minus sign alone, so what follows it follows a factor. -/
theorem Inked.lead {t : String} (h : Inked t) :
    Lead.after .nothing t = .factor ∧ Lead.after .minus t = .factor := by
  obtain ⟨c, hc, hne⟩ := h
  have hempty : t ≠ "" := by
    rintro rfl
    simp at hc
  have hminus : t ≠ "-" := by
    rintro rfl
    exact hne (by simpa using hc)
  simp [Lead.after, hempty, hminus]

/-! ## Texts -/

theorem itemsText_series (mark : Expr → String) (precedence : Nat) (p : Expr) (ps : List Expr) :
    itemsText (series mark precedence (p :: ps)) = p.piece.operand precedence false ++
      itemsText (ps.map fun x => .of (mark x) precedence false x) := by
  simp [series, itemsText, operand_piece]

theorem intercalate_eq (mark : String) (precedence : Nat) (ps : List Expr) :
    mark.intercalate (ps.map fun x => x.piece.operand precedence false) =
      itemsText (series (fun _ => mark) precedence ps) := by
  cases ps with
  | nil => simp [series, itemsText]
  | cons p ps =>
    rw [itemsText_series]
    induction ps generalizing p with
    | nil => simp [itemsText]
    | cons q ps ih =>
      have hq := ih q
      rw [List.map_cons] at hq
      rw [List.map_cons, List.map_cons, String.intercalate_cons_cons, hq]
      simp [itemsText, operand_piece, String.append_assoc]

/-- The text of a sum after its first term is laid out with plus signs, where there is no minus. -/
theorem termsText_eq (ps : List Expr) : termsText (ps.map piece) =
    itemsText (ps.map fun x => .of (termMark x) Operator.add.precedence false x) := by
  induction ps with
  | nil => rfl
  | cons p ps ih =>
    rw [List.map_cons, List.map_cons, termsText, itemsText, ih, Item.text_of, ← operand_piece,
      termMark]
    split_ifs <;> simp

theorem firstText_piece {p base : Expr} (h : p.reciprocalBase? = some base) :
    p.piece.firstText = base.text := by
  unfold reciprocalBase? asPower? at h
  split at h
  · next b n hp =>
    split at hp
    · split at hp
      · cases hp
        split_ifs at h
        cases h
        rfl
      · cases hp
    · cases hp
  · cases h

/-- The text of a product after its first factor is laid out with stars and slashes. -/
theorem factorsText_eq (before : Expr) (ps : List Expr) :
    factorsText before .factor (ps.map piece) = itemsText (factorItems before ps) := by
  induction ps generalizing before with
  | nil => rfl
  | cons p ps ih =>
    rw [List.map_cons, factorItems, itemsText, ← ih, factorsText]
    cases hbase : p.reciprocalBase? with
    | none => simp [hbase, Lead.after, operand_piece]
    | some base =>
      by_cases hratio : readsAsRatio before base (ps.map piece) = true
      · simp [hbase, hratio, Lead.after, operand_piece]
      · simp [hbase, hratio, Lead.after, firstText_piece hbase]

/-- The text of a product of two or more factors is its layout. -/
theorem productText_eq {p q : Expr} {ps : List Expr} (hexact : ∀ x, p ≠ .num (.double x))
    (hinked : ∀ x ∈ p :: q :: ps, Inked x.text) : productText ((p :: q :: ps).map piece) =
      itemsText (layout .multiply (p :: q :: ps)) := by
  rw [layout]
  split_ifs with hminus
  · -- a minus sign before the second factor
    have hnumber : q.isNumber = false := by simpa using (Bool.and_eq_true_iff.1 hminus).2
    have hsame : p.same (.num .minusOne) = true := (Bool.and_eq_true_iff.1 hminus).1
    have hq := (hinked q (by simp)).operandText Operator.multiply.precedence false q
    have hlead : Lead.after .nothing "-" = .minus := by simp [Lead.after]
    rw [itemsText, Item.text_of, ← factorsText_eq]
    simp [productText, firstFactorText, factorsText, hsame, hnumber, hlead, operand_piece, hq.lead,
      String.append_assoc]
  · have hfirst : firstFactorText p.piece ((q :: ps).map piece) = (firstItem p).text := by
      by_cases hnumber : p.isNumber = true
      · cases p with
        | num n =>
          rw [firstFactorText_num hminus fun x hx => hexact x (hx ▸ rfl)]
          simp [firstItem, isNumber, Item.text, Item.body]
        | sym name role => cases hnumber
        | app op qs => cases hnumber
      · rw [firstFactorText_of_isNumber_eq_false (by simpa using hnumber), firstItem,
          if_neg hnumber, Item.text_of, operand_piece, String.empty_append]
    -- the first factor leaves ink, so the next one is written behind a factor
    have hp : Inked (firstItem p).text := by
      have hp := hinked p (by simp)
      unfold firstItem
      split_ifs
      · exact hp.append_left ""
      · exact (hp.operandText _ _ _).append_left ""
    rw [itemsText, ← factorsText_eq, List.map_cons, productText, hfirst, hp.lead.1, node_piece]

/-- The text of a call is its name and, in parentheses, the layout of its parameters. -/
theorem callText_eq (op : Operator) (ps : List Expr) : op.callText (ps.map piece) =
    op.name ++ "(" ++ itemsText (series (fun _ => ",") 0 ps) ++ ")" := by
  have htexts : (ps.map piece).map Piece.text = ps.map fun x => x.piece.operand 0 false := by
    rw [List.map_map]
    exact List.map_congr_left fun x _ => by simp [Piece.operand, operandText]
  rw [Operator.callText, htexts, intercalate_eq]

/-- The text of an application is its layout, within the parentheses of the call if it is one. -/
theorem text_app {op : Operator} {ps : List Expr} (he : (Expr.app op ps).MadeOf s.writable)
    (hinked : ∀ p ∈ ps, Inked p.text) : (Expr.app op ps).text =
      if isCall op ps then op.name ++ "(" ++ itemsText (layout op ps) ++ ")"
      else itemsText (layout op ps) := by
  obtain ⟨⟨hop, -⟩, hps⟩ := madeOf_app.1 he
  match ps, hps, hinked with
  | [], _, _ =>
    have htext : (Expr.app op []).text = op.callText ([].map piece) := by
      simp [text, piece, pieces, Operator.text]
    rw [htext, callText_eq]
    rcases hop with (rfl | rfl | rfl) | ⟨id, rfl⟩ <;> rfl
  | [p], _, _ =>
    have htext : (Expr.app op [p]).text = op.callText ([p].map piece) := by
      simp [text, piece, pieces, Operator.text]
    rw [htext, callText_eq]
    rcases hop with (rfl | rfl | rfl) | ⟨id, rfl⟩ <;> rfl
  | p :: q :: ps, hps, hinked =>
    rcases hop with (rfl | rfl | rfl) | ⟨id, rfl⟩
    · rw [text_sum, termsText_eq]
      exact (itemsText_series termMark _ p (q :: ps)).symm
    · -- doubles are not writable
      have hexact : ∀ x, p ≠ .num (.double x) := by
        rintro x rfl
        have hexact := madeOf_num.1 (hps (.num (.double x)) (by simp))
        cases hexact
      rw [text_product, productText_eq hexact hinked]
      rfl
    · cases ps with
      | nil =>
        rw [text_power]
        simp [isCall, layout, itemsText, operand_piece]
      | cons r ps =>
        -- with more than two parameters a power is a call
        have htext : (Expr.app .power (p :: q :: r :: ps)).text =
            Operator.power.callText ((p :: q :: r :: ps).map piece) := by
          simp [text, piece, pieces, pieces_eq_map, Operator.text, Operator.mark,
            Operator.infixText]
        rw [htext, callText_eq]
        rfl
    · rw [text_define, intercalate_eq]
      rfl

/-! ## Operands -/

/-- The operand `q` stands for the parameter `p`: it is that parameter, or what a factor is the
reciprocal of. -/
def StandsFor (op : Operator) (q p : Expr) : Prop :=
  q = p ∨ op = .multiply ∧ p.reciprocalBase? = some q

/-- Only a power with the exponent minus one is written with a slash. -/
theorem exists_power_of_reciprocalBase? {p q : Expr} (h : p.reciprocalBase? = some q) :
    ∃ op, op.name = Operator.power.name ∧ p = .app op [q, .num (.integer (-1))] := by
  unfold reciprocalBase? at h
  split at h
  · next b n hp =>
    split_ifs at h with hn
    cases h
    obtain ⟨op, rfl, hname⟩ := asPower?_eq_some hp
    exact ⟨op, hname, by rw [eq_of_same_minusOne hn]⟩
  · cases h

/-- An operand is made of what the parameter is made of that it stands for. -/
theorem StandsFor.madeOf {M : Material} {op : Operator} {p q : Expr} (h : StandsFor op q p)
    (hp : p.MadeOf M) : q.MadeOf M := by
  rcases h with rfl | ⟨-, hbase⟩
  · exact hp
  · obtain ⟨op', -, rfl⟩ := exists_power_of_reciprocalBase? hbase
    exact (madeOf_app.1 hp).2 q (by simp)

/-- A property holds of every expression if applications inherit it from their operands. -/
@[elab_as_elim]
theorem operand_induction {motive : Expr → Prop} (e : Expr) (num : ∀ n, motive (.num n))
    (sym : ∀ name role, motive (.sym name role))
    (app : ∀ op ps, (∀ p ∈ ps, ∀ q, StandsFor op q p → motive q) → motive (.app op ps)) :
    motive e := by
  have hboth : motive e ∧ ∀ q, e.reciprocalBase? = some q → motive q := by
    induction e using Expr.induction with
    | num n => exact ⟨num n, fun q h => by cases h⟩
    | sym name role => exact ⟨sym name role, fun q h => by cases h⟩
    | app op ps ih =>
      refine ⟨app op ps fun p hp q hq => ?_, fun q hq => ?_⟩
      · rcases hq with rfl | ⟨-, hbase⟩
        · exact (ih q hp).1
        · exact (ih p hp).2 q hbase
      · obtain ⟨op', -, heq⟩ := exists_power_of_reciprocalBase? hq
        cases heq
        exact (ih q (by simp)).1
  exact hboth.1

theorem mem_series {mark : Expr → String} {precedence : Nat} {ps : List Expr} {i : Item}
    (h : i ∈ series mark precedence ps) :
    ∃ p ∈ ps, ∃ m, (m = "" ∨ m = mark p) ∧ i = .of m precedence false p := by
  cases ps with
  | nil => cases h
  | cons p ps =>
    rcases List.mem_cons.1 h with rfl | h
    · exact ⟨p, by simp, "", .inl rfl, rfl⟩
    · obtain ⟨x, hx, rfl⟩ := List.mem_map.1 h
      exact ⟨x, List.mem_cons_of_mem p hx, mark x, .inr rfl, rfl⟩

theorem exists_mem_series {mark : Expr → String} {precedence : Nat} {ps : List Expr} {p : Expr}
    (h : p ∈ ps) : ∃ m, Item.of m precedence false p ∈ series mark precedence ps := by
  cases ps with
  | nil => cases h
  | cons q ps =>
    rcases List.mem_cons.1 h with rfl | h
    · exact ⟨"", List.mem_cons_self⟩
    · exact ⟨mark p, List.mem_cons_of_mem _ (List.mem_map_of_mem h)⟩

/-- The items of a product are its factors, or the bases of reciprocals among them. -/
theorem mem_factorItems {before : Expr} {ps : List Expr} {i : Item}
    (h : i ∈ factorItems before ps) :
    ∃ p ∈ ps, i = .of "*" Operator.multiply.precedence false p ∨
      ∃ base, p.reciprocalBase? = some base ∧
        i = .of "/" Operator.multiply.precedence true base := by
  induction ps generalizing before with
  | nil => cases h
  | cons p ps ih =>
    rcases List.mem_cons.1 h with rfl | h
    · refine ⟨p, by simp, ?_⟩
      split
      · next base hbase =>
        split_ifs
        · exact .inl rfl
        · exact .inr ⟨base, hbase, rfl⟩
      · exact .inl rfl
    · obtain ⟨x, hx, hi⟩ := ih h
      exact ⟨x, List.mem_cons_of_mem p hx, hi⟩

/-- Every factor has an item that stands for it. -/
theorem exists_mem_factorItems (before : Expr) {p : Expr} {ps : List Expr} (h : p ∈ ps) :
    ∃ i ∈ factorItems before ps, StandsFor .multiply i.operand p := by
  induction ps generalizing before with
  | nil => cases h
  | cons q ps ih =>
    rcases List.mem_cons.1 h with rfl | h
    · refine ⟨_, List.mem_cons_self, ?_⟩
      split
      · next base hbase =>
        split_ifs
        · exact .inl rfl
        · exact .inr ⟨rfl, hbase⟩
      · exact .inl rfl
    · obtain ⟨i, hi, hp⟩ := ih q h
      exact ⟨i, List.mem_cons_of_mem _ hi, hp⟩

theorem mem_factorItems_of_mem_divisorsAfter {before d : Expr} {ps : List Expr}
    (h : d ∈ divisorsAfter before ps) :
    Item.of "/" Operator.multiply.precedence true d ∈ factorItems before ps := by
  induction ps generalizing before with
  | nil => cases h
  | cons p ps ih =>
    rw [divisorsAfter] at h
    rw [factorItems]
    cases hbase : p.reciprocalBase? with
    | none =>
      simp only [hbase] at h
      exact List.mem_cons_of_mem _ (ih h)
    | some base =>
      simp only [hbase] at h ⊢
      split_ifs at h ⊢
      · exact List.mem_cons_of_mem _ (ih h)
      · rcases List.mem_cons.1 h with rfl | h
        · exact List.mem_cons_self
        · exact List.mem_cons_of_mem _ (ih h)

/-- The first operand is a parameter, unless there are no operands. -/
theorem head_layout {op : Operator} {ps : List Expr} (h : isCall op ps = false) :
    ∃ i is, layout op ps = i :: is ∧ i.operand ∈ ps := by
  unfold layout
  split
  · exact ⟨_, _, rfl, by simp⟩
  · split_ifs
    · exact ⟨_, _, rfl, by simp⟩
    · refine ⟨_, _, rfl, ?_⟩
      unfold firstItem
      split_ifs <;> simp
  · exact ⟨_, _, rfl, by simp⟩
  · exact ⟨_, _, rfl, by simp⟩
  · match ps with
    | [] => cases h
    | [p] => exact ⟨_, _, rfl, by simp⟩
    | p :: q :: ps => exact ⟨_, _, rfl, by simp⟩

/-- What the layout makes of the parameters. -/
structure Item.Fits (i : Item) (op : Operator) (ps : List Expr) : Prop where
  source : ∃ p ∈ ps, StandsFor op i.operand p
  mark : textLevel i.mark = 0
  /-- What binds more loosely than a sum is in parentheses. -/
  grouped : isCall op ps = false → (Expr.app op ps).isEquation = false →
    i.operand.precedence < Operator.add.precedence → i.grouped = true

theorem Item.fits_of {op : Operator} {ps : List Expr} {m : String} {precedence : Nat}
    {strict : Bool} {p q : Expr} (hp : p ∈ ps) (hq : StandsFor op q p) (hm : textLevel m = 0)
    (h : isCall op ps = false → (Expr.app op ps).isEquation = false →
      Operator.add.precedence ≤ precedence) : (Item.of m precedence strict q).Fits op ps where
  source := ⟨p, hp, hq⟩
  mark := hm
  grouped hcall hequation hlt := by
    have hlt' : q.precedence < precedence := Nat.lt_of_lt_of_le hlt (h hcall hequation)
    simp [Item.of, hlt']

theorem Item.fits_of_mem_series {op : Operator} {ps : List Expr} {mark : Expr → String}
    {precedence : Nat} {i : Item} (hi : i ∈ series mark precedence ps)
    (hmark : ∀ p, textLevel (mark p) = 0)
    (h : isCall op ps = false → (Expr.app op ps).isEquation = false →
      Operator.add.precedence ≤ precedence) : i.Fits op ps := by
  obtain ⟨p, hp, m, hm, rfl⟩ := mem_series hi
  refine fits_of hp (.inl rfl) ?_ h
  rcases hm with rfl | rfl
  · rfl
  · exact hmark p

theorem Item.fits_of_mem_factorItems {before : Expr} {ps qs : List Expr} {i : Item}
    (hi : i ∈ factorItems before ps) (h : ∀ p ∈ ps, p ∈ qs) : i.Fits .multiply qs := by
  have hprec : Operator.add.precedence ≤ Operator.multiply.precedence := by decide
  obtain ⟨p, hp, rfl | ⟨base, hbase, rfl⟩⟩ := mem_factorItems hi
  · exact fits_of (h p hp) (.inl rfl) rfl fun _ _ => hprec
  · exact fits_of (h p hp) (.inr ⟨rfl, hbase⟩) rfl fun _ _ => hprec

theorem textLevel_termMark (p : Expr) : textLevel (termMark p) = 0 := by
  unfold termMark
  split_ifs <;> rfl

/-- Every item of a layout fits its application: it stands for a parameter and is enclosed where it
must be. -/
theorem fits_of_mem_layout {op : Operator} {ps : List Expr} (hop : op.IsBuiltIn) {i : Item}
    (hi : i ∈ layout op ps) : i.Fits op ps := by
  have hprec : Operator.add.precedence ≤ Operator.multiply.precedence := by decide
  unfold layout at hi
  split at hi
  · exact Item.fits_of_mem_series hi textLevel_termMark fun _ _ => le_rfl
  · split_ifs at hi
    · rcases List.mem_cons.1 hi with rfl | hi
      · exact Item.fits_of (by simp) (.inl rfl) rfl fun _ _ => hprec
      · exact Item.fits_of_mem_factorItems hi fun p hp => by simp [hp]
    · rcases List.mem_cons.1 hi with rfl | hi
      · unfold firstItem
        split_ifs with hnumber
        · refine ⟨⟨_, List.mem_cons_self, .inl rfl⟩, rfl, fun _ _ hlt => ?_⟩
          exact absurd (add_le_precedence_of_isNumber hnumber) (Nat.not_le.2 hlt)
        · exact Item.fits_of (by simp) (.inl rfl) rfl fun _ _ => hprec
      · exact Item.fits_of_mem_factorItems hi fun p hp => by simp [List.mem_cons.1 hp]
  · rcases List.mem_pair.1 hi with rfl | rfl
    · exact Item.fits_of (by simp) (.inl rfl) rfl fun _ _ => by decide
    · exact Item.fits_of (by simp) (.inl rfl) rfl fun _ _ => by decide
  · exact Item.fits_of_mem_series hi (fun _ => rfl) fun _ hequation => by cases hequation
  · next hadd hmultiply hpower hdefine =>
    -- nothing is left but calls
    refine Item.fits_of_mem_series hi (fun _ => rfl) fun hcall _ => ?_
    match ps, hi with
    | [], hi => cases hi
    | [p], _ => cases hcall
    | p :: q :: ps, _ =>
      rcases hop with (rfl | rfl | rfl) | ⟨id, rfl⟩
      · exact (hadd p q ps rfl rfl).elim
      · exact (hmultiply p q ps rfl rfl).elim
      · cases ps with
        | nil => exact (hpower p q rfl rfl).elim
        | cons r ps => simp [isCall] at hcall
      · exact (hdefine id p q ps rfl rfl).elim

/-- Every parameter but a number has an operand that stands for it. -/
theorem exists_mem_layout {op : Operator} {ps : List Expr} {p : Expr} (hp : p ∈ ps)
    (hnumber : p.isNumber = false) : ∃ i ∈ layout op ps, StandsFor op i.operand p := by
  have hseries : ∀ {mark : Expr → String} {precedence : ℕ} {qs : List Expr}, p ∈ qs →
      ∃ i ∈ series mark precedence qs, StandsFor op i.operand p := fun hqs => by
    obtain ⟨m, hm⟩ := exists_mem_series hqs
    exact ⟨_, hm, .inl rfl⟩
  unfold layout
  split
  · exact hseries hp
  · next q r ps =>
    split_ifs with hminus
    · -- only the number minus one turns into a sign
      have hq : q ≠ p := by
        rintro rfl
        rw [eq_of_same_minusOne (Bool.and_eq_true_iff.1 hminus).1] at hnumber
        cases hnumber
      rcases List.mem_cons.1 hp with rfl | hp
      · exact absurd rfl hq
      · rcases List.mem_cons.1 hp with rfl | hp
        · exact ⟨_, List.mem_cons_self, .inl rfl⟩
        · obtain ⟨i, hi, hip⟩ := exists_mem_factorItems r hp
          exact ⟨i, List.mem_cons_of_mem _ hi, hip⟩
    · rcases List.mem_cons.1 hp with rfl | hp
      · refine ⟨_, List.mem_cons_self, .inl ?_⟩
        simp [firstItem, hnumber]
      · obtain ⟨i, hi, hip⟩ := exists_mem_factorItems q hp
        exact ⟨i, List.mem_cons_of_mem _ hi, hip⟩
  · rcases List.mem_pair.1 hp with rfl | rfl
    · exact ⟨_, List.mem_cons_self, .inl rfl⟩
    · exact ⟨_, List.mem_cons_of_mem _ List.mem_cons_self, .inl rfl⟩
  · exact hseries hp
  · exact hseries hp

/-! ## Marks between operands -/

/-- In a series a divisor ends at the next item if it ends at each mark. -/
theorem endsDivisor_of_mem_series {mark : Expr → String} {precedence : ℕ} {ps : List Expr}
    (hmark : ∀ p, EndsDivisor (mark p ++ operandText precedence false p p.text)) {i : Item}
    (hi : i ∈ (series mark precedence ps).tail) : EndsDivisor i.text := by
  cases ps with
  | nil => cases hi
  | cons p ps =>
    obtain ⟨x, -, rfl⟩ := List.mem_map.1 hi
    rw [Item.text_of]
    exact hmark x

/-- A divisor ends at the next factor. -/
theorem endsDivisor_of_mem_factorItems {before : Expr} {ps : List Expr} {i : Item}
    (hi : i ∈ factorItems before ps) : EndsDivisor i.text := by
  obtain ⟨p, -, rfl | ⟨base, -, rfl⟩⟩ := mem_factorItems hi
  · rw [Item.text_of]
    exact endsDivisor_mark (k := .star) (c := '*') (by decide) (by decide) (by decide) _
  · rw [Item.text_of]
    exact endsDivisor_mark (k := .slash) (c := '/') (by decide) (by decide) (by decide) _

/-- A divisor ends before every operand but the first one and the exponent of a power. -/
theorem endsDivisor_of_mem_tail {op : Operator} {ps : List Expr} {i : Item}
    (hi : i ∈ (layout op ps).tail) (h : op = .power → isCall op ps = true) :
    EndsDivisor i.text := by
  unfold layout at hi
  split at hi
  · refine endsDivisor_of_mem_series (fun p => ?_) hi
    unfold termMark
    rw [operand_piece]
    split_ifs with hminus
    · obtain ⟨cs, hcs⟩ := List.head?_eq_some_iff.1 hminus
      exact endsDivisor_of_toList (k := .minus) (by simpa using hcs) (by decide) (by decide)
    · exact endsDivisor_mark (k := .plus) (c := '+') (by decide) (by decide) (by decide) _
  · split_ifs at hi
    · exact endsDivisor_of_mem_factorItems hi
    · exact endsDivisor_of_mem_factorItems hi
  · cases h rfl
  · exact endsDivisor_of_mem_series (fun p =>
      endsDivisor_mark (k := .equals) (c := '=') (by decide) (by decide) (by decide) _) hi
  · exact endsDivisor_of_mem_series (fun p =>
      endsDivisor_mark (k := .comma) (c := ',') (by decide) (by decide) (by decide) _) hi

end Expr

end Reckoner
