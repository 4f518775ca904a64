import Mathlib.Data.List.Basic
import Reckoner.Expr.Outline
import Reckoner.Proofs.Text.Written

/-!
# What an outline tells

The outline of an expression determines it. A line tells how deep its node is by the spaces it
begins with, and what node it is by the rest: a number is followed by its kind, and no name has a
space in it. So where the lines of a forest end can be seen from the first line that is not as deep,
and the parameters of a node are the forest right behind it that is one level deeper.

Symbols and operators are both bare names. They are told apart by whether there are parameters, so
there must not be an application without any.
-/

namespace Reckoner

/-- At least one character, and neither a space nor the end of a line, such as in a name. -/
def IsWord (cs : List Char) : Prop := cs ≠ [] ∧ ∀ c ∈ cs, c ≠ ' ' ∧ c ≠ '\n'

/-- A name is a word: there is no space in it. -/
theorem IsName.isWord {cs : List Char} (h : IsName cs) : IsWord cs := by
  obtain ⟨⟨c, hc, -⟩, hall⟩ := h
  refine ⟨fun hnil => by simp [hnil] at hc, fun d hd => ⟨?_, ?_⟩⟩
  · rintro rfl
    exact absurd (hall _ hd) (by decide)
  · rintro rfl
    exact absurd (hall _ hd) (by decide)

/-! ## Numbers -/

theorem decimalNat_injective {m n : ℕ} (h : decimalNat m = decimalNat n) : m = n := by
  have hdigits : Nat.toDigits 10 m = Nat.toDigits 10 n := by
    simpa only [decimalNat, Nat.toList_repr] using congrArg String.toList h
  rw [← Nat.ofDigitChars_ten_toDigits (n := m), hdigits, Nat.ofDigitChars_ten_toDigits]

theorem decimalNat_ne_nil (n : ℕ) : (decimalNat n).toList ≠ [] := by
  rw [decimalNat, Nat.toList_repr]
  exact Nat.toDigits_ne_nil

theorem eq_minus_or_isDigit_of_mem_decimalInt {n : ℤ} {c : Char} (h : c ∈ (decimalInt n).toList) :
    c = '-' ∨ c.isDigit = true := by
  unfold decimalInt at h
  split at h
  · rw [String.toList_append, List.mem_append] at h
    exact h.imp (by simp) isDigit_of_mem_decimalNat
  · exact .inr (isDigit_of_mem_decimalNat h)

theorem decimalInt_ne_nil (n : ℤ) : (decimalInt n).toList ≠ [] := by
  unfold decimalInt
  split
  · simp
  · exact decimalNat_ne_nil _

theorem minus_mem_decimalInt {n : ℤ} : '-' ∈ (decimalInt n).toList ↔ n < 0 := by
  unfold decimalInt
  split
  · next h => simp [h]
  · next h =>
    refine iff_of_false (fun hminus => ?_) h
    exact absurd (isDigit_of_mem_decimalNat hminus) (by decide)

/-- No two integers have the same text. -/
theorem decimalInt_injective {m n : ℤ} (h : decimalInt m = decimalInt n) : m = n := by
  have hsign : m < 0 ↔ n < 0 := by rw [← minus_mem_decimalInt, h, minus_mem_decimalInt]
  have habs : m.natAbs = n.natAbs := by
    refine decimalNat_injective ?_
    unfold decimalInt at h
    by_cases hm : m < 0
    · rw [if_pos hm, if_pos (hsign.1 hm)] at h
      exact String.append_right_inj _ |>.1 h
    · rwa [if_neg hm, if_neg (hsign.not.1 hm)] at h
  omega

namespace Number

variable {a b : Number}

/-- An exact number is an integer or a fraction. -/
theorem exists_plain_of_exact (h : a.toRat?.isSome = true) :
    (∃ k, a.plain = .integer k) ∨ ∃ q, a.plain = .fraction q := by
  cases a with
  | integer k => exact .inl ⟨k, rfl⟩
  | double x => cases h
  | fraction q => exact .inr ⟨q, rfl⟩
  | unit => exact .inl ⟨1, rfl⟩

theorem text_plain (a : Number) : a.plain.text = a.text := by cases a <;> rfl

theorem kindName_plain (a : Number) : a.plain.kindName = a.kindName := by cases a <;> rfl

/-- The text of an exact number is a word. -/
theorem isWord_text (h : a.toRat?.isSome = true) : IsWord a.text.toList := by
  have hchars : ∀ c ∈ a.text.toList, c = '-' ∨ c.isDigit = true ∨ c = '/' := by
    intro c hc
    rw [← text_plain] at hc
    obtain ⟨k, hk⟩ | ⟨q, hq⟩ := exists_plain_of_exact h
    · rw [hk] at hc
      exact (eq_minus_or_isDigit_of_mem_decimalInt hc).imp_right .inl
    · simp only [hq, text, String.toList_append, List.mem_append] at hc
      obtain (hnum | hslash) | hden := hc
      · exact (eq_minus_or_isDigit_of_mem_decimalInt hnum).imp_right .inl
      · exact .inr (.inr (by simpa using hslash))
      · exact .inr (.inl (isDigit_of_mem_decimalNat hden))
  constructor
  · rw [← text_plain]
    obtain ⟨k, hk⟩ | ⟨q, hq⟩ := exists_plain_of_exact h
    · rw [hk]
      exact decimalInt_ne_nil k
    · simp [hq, text]
  · intro c hc
    constructor <;> rintro rfl <;> exact absurd (hchars _ hc) (by decide)

/-- The text of an exact number and its kind determine it. -/
theorem same_of_text_eq (ha : a.toRat?.isSome = true) (hb : b.toRat?.isSome = true)
    (htext : a.text = b.text) (hkind : a.kindName = b.kindName) : a.same b = true := by
  rw [← text_plain, ← text_plain b] at htext
  rw [← kindName_plain, ← kindName_plain b] at hkind
  unfold same
  obtain ⟨k, hk⟩ | ⟨q, hq⟩ := exists_plain_of_exact ha <;>
    obtain ⟨l, hl⟩ | ⟨r, hr⟩ := exists_plain_of_exact hb
  · rw [hk, hl] at htext ⊢
    exact beq_iff_eq.2 (decimalInt_injective htext)
  · simp [hk, hr, kindName] at hkind
  · simp [hq, hl, kindName] at hkind
  · rw [hq, hr] at htext ⊢
    have hslash : ∀ {cs : List Char}, (∀ c ∈ cs, c = '-' ∨ c.isDigit = true) → '/' ∉ cs :=
      fun h hmem => absurd (h _ hmem) (by decide)
    have hchars := congrArg String.toList htext
    simp only [text, String.toList_append, List.append_assoc] at hchars
    obtain ⟨hnum, -, hden⟩ := (List.append_cons_inj_of_notMem
      (hslash fun c => eq_minus_or_isDigit_of_mem_decimalInt)
      (hslash fun c hc => .inr (isDigit_of_mem_decimalNat hc))).1 hchars
    exact beq_iff_eq.2 (Rat.ext (decimalInt_injective (String.toList_inj.1 hnum))
      (decimalNat_injective (String.toList_inj.1 hden)))

end Number

namespace Expr

/-! ## Nodes -/

/-- What the line of an expression's node says behind its indentation. -/
def label : Expr → String
  | .num n => n.text ++ " (" ++ n.kindName ++ ")"
  | .sym name _ => name
  | .app op _ => op.name

/-- The parameters of an application; other expressions have none. -/
def params : Expr → List Expr
  | .num _ => []
  | .sym _ _ => []
  | .app _ ps => ps

/-- The outline of an expression is its label and the outlines of its parameters, one level
deeper. -/
theorem outlineLines_eq (indent lead : String) (e : Expr) :
    e.outlineLines indent lead =
      (lead ++ e.label) :: outlineLinesOf indent (lead ++ indent) e.params := by
  cases e with
  | num n => simp [outlineLines, outlineLinesOf, label, params, String.append_assoc]
  | sym name role => rfl
  | app op ps => rfl

end Expr

/-- Everything but doubles, with words as names. -/
def Material.listed : Material where
  number n := n.toRat?.isSome
  symbol name _ := IsWord name.toList
  operator op := IsWord op.name.toList

/-- Everything but doubles, with a letter and letters and digits after it as names of variables,
and only the operators that are built in. -/
def Material.named : Material where
  number n := n.toRat?.isSome
  symbol name _ := IsName name.toList
  operator op := op.IsBuiltIn

namespace Expr

variable {e e' : Expr}

/-- No number of the expression is a double, its names are words, and its applications have
parameters. -/
def IsListed (e : Expr) : Prop := e.MadeOf .listed ∧ e.EveryNode fun _ ps => ps ≠ []

/-- Expressions with proper names and no empty application can be listed. -/
theorem IsListed.of_named (h : e.MadeOf .named) (hparams : e.EveryNode fun _ ps => ps ≠ []) :
    e.IsListed := by
  refine ⟨h.mono (fun n hn => ?_) (fun name role hname => ?_) (fun op hop => ?_), hparams⟩
  · exact hn
  · exact IsName.isWord hname
  · exact (Operator.IsBuiltIn.isName_name hop).isWord

theorem IsListed.of_mem_params {p : Expr} (h : e.IsListed) (hp : p ∈ e.params) : p.IsListed := by
  cases e with
  | num n => cases hp
  | sym name role => cases hp
  | app op ps => exact ⟨inherited_madeOf op ps h.1 p hp, inherited_everyNode op ps h.2 p hp⟩

/-- The label of a number is its text and its kind, with a space between them. -/
theorem toList_label_num (n : Number) :
    (Expr.num n).label.toList = n.text.toList ++ ' ' :: ('(' :: (n.kindName.toList ++ [')'])) := by
  simp [label]

theorem kindName_chars (n : Number) :
    ∀ c ∈ '(' :: (n.kindName.toList ++ [')']), c ≠ ' ' ∧ c ≠ '\n' := by
  cases n <;> simp [Number.kindName]

/-- The label of anything else is a word. -/
theorem isWord_label (h : e.IsListed) (hnumber : e.isNumber = false) : IsWord e.label.toList := by
  cases e with
  | num n => cases hnumber
  | sym name role => exact madeOf_sym.1 h.1
  | app op ps => exact (madeOf_app.1 h.1).1

/-- A label with a space in it is that of a number. -/
theorem space_mem_label_iff (h : e.IsListed) : ' ' ∈ e.label.toList ↔ e.isNumber = true := by
  cases hnumber : e.isNumber with
  | false => exact iff_of_false (fun hmem => ((isWord_label h hnumber).2 _ hmem).1 rfl) (by simp)
  | true =>
    cases e with
    | num n => simp [toList_label_num]
    | sym name role => cases hnumber
    | app op ps => cases hnumber

theorem newline_notMem_label (h : e.IsListed) : '\n' ∉ e.label.toList := by
  intro hmem
  cases e with
  | num n =>
    rw [toList_label_num, List.mem_append, List.mem_cons] at hmem
    obtain htext | hspace | hkind := hmem
    · exact ((Number.isWord_text (madeOf_num.1 h.1)).2 _ htext).2 rfl
    · exact absurd hspace (by decide)
    · exact (kindName_chars n _ hkind).2 rfl
  | sym name role => exact ((isWord_label h rfl).2 _ hmem).2 rfl
  | app op ps => exact ((isWord_label h rfl).2 _ hmem).2 rfl

/-- A label is made of a first character that is no space and others. -/
theorem exists_label_eq_cons (h : e.IsListed) : ∃ c cs, e.label.toList = c :: cs ∧ c ≠ ' ' := by
  have hword : ∀ {cs : List Char} (ds : List Char), IsWord cs →
      ∃ c es, cs ++ ds = c :: es ∧ c ≠ ' ' := by
    rintro (- | ⟨c, cs⟩) ds ⟨hne, hall⟩
    · exact absurd rfl hne
    · exact ⟨c, cs ++ ds, rfl, (hall c (by simp)).1⟩
  cases e with
  | num n =>
    rw [toList_label_num]
    exact hword _ (Number.isWord_text (madeOf_num.1 h.1))
  | sym name role => simpa using hword [] (isWord_label h rfl)
  | app op ps => simpa using hword [] (isWord_label h rfl)

/-- Nodes of the same label with the same parameters are the same. -/
theorem same_of_label_eq (h : e.IsListed) (h' : e'.IsListed) (hlabel : e.label = e'.label)
    (hparams : sameList e.params e'.params = true) : e.same e' = true := by
  have hkind : e.isNumber = true ↔ e'.isNumber = true := by
    rw [← space_mem_label_iff h, hlabel, space_mem_label_iff h']
  cases e with
  | num m =>
    obtain ⟨n, rfl⟩ : ∃ n, e' = .num n := by
      cases e' with
      | num n => exact ⟨n, rfl⟩
      | sym name role => exact absurd (hkind.1 rfl) (by simp [isNumber])
      | app op ps => exact absurd (hkind.1 rfl) (by simp [isNumber])
    have hm : m.toRat?.isSome = true := madeOf_num.1 h.1
    have hn : n.toRat?.isSome = true := madeOf_num.1 h'.1
    have hchars := congrArg String.toList hlabel
    rw [toList_label_num, toList_label_num] at hchars
    obtain ⟨htext, -, htail⟩ := (List.append_cons_inj_of_notMem
      (fun hmem => ((Number.isWord_text hm).2 _ hmem).1 rfl)
      (fun hmem => (kindName_chars m _ hmem).1 rfl)).1 hchars
    have hname := List.append_cancel_right (List.cons.inj htail).2
    exact Number.same_of_text_eq hm hn (String.toList_inj.1 htext) (String.toList_inj.1 hname)
  | sym name role =>
    cases e' with
    | num n => exact absurd (hkind.2 rfl) (by simp [isNumber])
    | sym name' role' => exact beq_iff_eq.2 hlabel
    | app op ps =>
      -- a symbol has no parameters, and an application has some
      have hne : ps ≠ [] := (everyNode_app.1 h'.2).1
      cases ps with
      | nil => exact absurd rfl hne
      | cons p ps => cases hparams
  | app op ps =>
    cases e' with
    | num n => exact absurd (hkind.2 rfl) (by simp [isNumber])
    | sym name' role' =>
      have hne : ps ≠ [] := (everyNode_app.1 h.2).1
      cases ps with
      | nil => exact absurd rfl hne
      | cons p ps => cases hparams
    | app op' ps' =>
      rw [same, Bool.and_eq_true]
      exact ⟨beq_iff_eq.2 hlabel, hparams⟩

/-! ## Lines -/

/-- How many spaces a line begins with. -/
def indentation (line : String) : ℕ := (line.toList.takeWhile (· = ' ')).length

/-- The first of the lines, if there is one, begins with fewer spaces than `lead`. -/
def Outdented (lead : String) (lines : List String) : Prop :=
  ∀ line ∈ lines.head?, indentation line < lead.length

theorem blank_deeper {lead : String} (hlead : ∀ c ∈ lead.toList, c = ' ') :
    ∀ c ∈ (lead ++ outlineIndent).toList, c = ' ' := by
  intro c hc
  rw [String.toList_append, List.mem_append] at hc
  exact hc.elim (hlead c) fun h => by simpa [outlineIndent] using h

/-- The spaces in front of a label tell how deep it is. -/
theorem indentation_append (h : e.IsListed) {lead : String} (hlead : ∀ c ∈ lead.toList, c = ' ') :
    indentation (lead ++ e.label) = lead.length := by
  obtain ⟨c, cs, hlabel, hc⟩ := exists_label_eq_cons h
  unfold indentation
  rw [String.toList_append, hlabel, List.takeWhile_append_of_pos (by simpa using hlead),
    List.takeWhile_cons_of_neg (by simpa using hc), List.append_nil, String.length_toList]

theorem outlineLinesOf_cons (indent lead : String) (p : Expr) (ps : List Expr)
    (rest : List String) : outlineLinesOf indent lead (p :: ps) ++ rest =
      (lead ++ p.label) :: (outlineLinesOf indent (lead ++ indent) p.params ++
        (outlineLinesOf indent lead ps ++ rest)) := by
  rw [outlineLinesOf, outlineLines_eq, List.cons_append, List.cons_append, List.append_assoc]

/-- The nodes beside an expression are not as deep as its parameters. -/
theorem outdented_outlineLinesOf {ps : List Expr} (hps : ∀ p ∈ ps, p.IsListed) {lead : String}
    (hlead : ∀ c ∈ lead.toList, c = ' ') {rest : List String} (hrest : Outdented lead rest) :
    Outdented (lead ++ outlineIndent) (outlineLinesOf outlineIndent lead ps ++ rest) := by
  have hlt : lead.length < (lead ++ outlineIndent).length := by
    have hindent : outlineIndent.length = 2 := rfl
    rw [String.length_append]
    omega
  intro line hline
  cases ps with
  | nil => exact (hrest line hline).trans hlt
  | cons p ps =>
    rw [outlineLinesOf_cons] at hline
    obtain rfl : lead ++ p.label = line := Option.some.inj hline
    rwa [indentation_append (hps p (by simp)) hlead]

/-- A forest that is not empty starts at its own level. -/
theorem not_outdented_outlineLinesOf {p : Expr} {ps : List Expr} (hp : p.IsListed) {lead : String}
    (hlead : ∀ c ∈ lead.toList, c = ' ') (rest : List String) :
    ¬ Outdented lead (outlineLinesOf outlineIndent lead (p :: ps) ++ rest) := by
  intro h
  rw [outlineLinesOf_cons] at h
  have hlt := h (lead ++ p.label) rfl
  rw [indentation_append hp hlead] at hlt
  exact lt_irrefl _ hlt

/-- The lines of a forest and some that are not as deep determine the forest and the other lines. -/
def Decodes (ps : List Expr) : Prop :=
  ∀ {qs : List Expr} {lead : String} {rest rest' : List String}, (∀ p ∈ ps, p.IsListed) →
    (∀ q ∈ qs, q.IsListed) → (∀ c ∈ lead.toList, c = ' ') → Outdented lead rest →
    Outdented lead rest' →
    outlineLinesOf outlineIndent lead ps ++ rest = outlineLinesOf outlineIndent lead qs ++ rest' →
    sameList ps qs = true ∧ rest = rest'

/-- A forest can be told from its lines if the forests of all parameters can. -/
theorem decodes_of_params (ps : List Expr) (h : ∀ p ∈ ps, Decodes p.params) : Decodes ps := by
  induction ps with
  | nil =>
    intro qs lead rest rest' _ hqs hlead hrest _ heq
    cases qs with
    | nil => exact ⟨rfl, heq⟩
    | cons q qs =>
      obtain rfl : rest = _ := heq
      exact absurd hrest (not_outdented_outlineLinesOf (hqs q (by simp)) hlead rest')
  | cons p ps ih =>
    intro qs lead rest rest' hps hqs hlead hrest hrest' heq
    obtain ⟨hp, hps⟩ := List.forall_mem_cons.1 hps
    cases qs with
    | nil =>
      obtain rfl : _ = rest' := heq
      exact absurd hrest' (not_outdented_outlineLinesOf hp hlead rest)
    | cons q qs =>
      obtain ⟨hq, hqs⟩ := List.forall_mem_cons.1 hqs
      rw [outlineLinesOf_cons, outlineLinesOf_cons] at heq
      obtain ⟨hline, hbehind⟩ := List.cons.inj heq
      -- both forests start with a root; behind it are its parameters, one level deeper, and then
      -- the rest
      have hlabel : p.label = q.label := (String.append_right_inj lead).1 hline
      obtain ⟨hparams, hbeside⟩ := h p (by simp) (fun _ => hp.of_mem_params)
        (fun _ => hq.of_mem_params) (blank_deeper hlead) (outdented_outlineLinesOf hps hlead hrest)
        (outdented_outlineLinesOf hqs hlead hrest') hbehind
      obtain ⟨hrests, hsame⟩ := ih (fun x hx => h x (by simp [hx])) hps hqs hlead hrest hrest'
        hbeside
      rw [sameList, Bool.and_eq_true]
      exact ⟨⟨same_of_label_eq hp hq hlabel hparams, hrests⟩, hsame⟩

/-- By induction, the parameters of every expression can be told from their lines. -/
theorem decodes_params (e : Expr) : Decodes e.params := by
  induction e using Expr.induction with
  | num n => exact decodes_of_params [] (by simp)
  | sym name role => exact decodes_of_params [] (by simp)
  | app op ps ih => exact decodes_of_params ps ih

/-- Expressions with the same lines are the same. -/
theorem same_of_outlineLines_eq (h : e.IsListed) (h' : e'.IsListed)
    (heq : e.outlineLines outlineIndent "" = e'.outlineLines outlineIndent "") :
    e.same e' = true := by
  have hnone : Outdented "" [] := by simp [Outdented]
  have hdecodes : Decodes [e] := decodes_of_params [e] fun p hp => by
    obtain rfl : p = e := by simpa using hp
    exact p.decodes_params
  have hlines : outlineLinesOf outlineIndent "" [e] ++ [] =
      outlineLinesOf outlineIndent "" [e'] ++ [] := by simpa [outlineLinesOf] using heq
  obtain ⟨hsame, -⟩ :=
    hdecodes (by simpa using h) (by simpa using h') (by simp) hnone hnone hlines
  simpa [sameList] using hsame

/-! ## Texts -/

theorem outlineLinesOf_eq_flatMap (indent lead : String) (ps : List Expr) :
    outlineLinesOf indent lead ps = ps.flatMap (outlineLines indent lead) := by
  induction ps with
  | nil => rfl
  | cons p ps ih => rw [outlineLinesOf, ih, List.flatMap_cons]

/-- No line of an outline has a line feed in it, so the lines can be told from the text. -/
theorem newline_notMem_outlineLines (h : e.IsListed) {lead : String}
    (hlead : ∀ c ∈ lead.toList, c = ' ') :
    ∀ line ∈ e.outlineLines outlineIndent lead, '\n' ∉ line.toList := by
  have hfirst : ∀ {p : Expr}, p.IsListed → ∀ {lead : String}, (∀ c ∈ lead.toList, c = ' ') →
      '\n' ∉ (lead ++ p.label).toList := by
    intro p hp lead hlead hmem
    rw [String.toList_append, List.mem_append] at hmem
    exact hmem.elim (fun hspace => absurd (hlead _ hspace) (by decide)) (newline_notMem_label hp)
  induction e using Expr.induction generalizing lead with
  | num n =>
    rw [outlineLines_eq]
    simpa [params, outlineLinesOf] using hfirst h hlead
  | sym name role =>
    rw [outlineLines_eq]
    simpa [params, outlineLinesOf] using hfirst h hlead
  | app op ps ih =>
    rw [outlineLines_eq, outlineLinesOf_eq_flatMap]
    refine List.forall_mem_cons.2 ⟨hfirst h hlead, fun line hline => ?_⟩
    obtain ⟨p, hp, hmem⟩ := List.mem_flatMap.1 hline
    exact ih p hp (h.of_mem_params hp) (blank_deeper hlead) line hmem

/-- Texts of lines are equal only if the lines are. -/
theorem eq_of_intercalate_newline {ls ls' : List String} (hne : ls ≠ []) (hne' : ls' ≠ [])
    (hls : ∀ l ∈ ls, '\n' ∉ l.toList) (hls' : ∀ l ∈ ls', '\n' ∉ l.toList)
    (heq : "\n".intercalate ls = "\n".intercalate ls') : ls = ls' := by
  have hsplit : ∀ {ls : List String}, ls ≠ [] → (∀ l ∈ ls, '\n' ∉ l.toList) →
      ("\n".intercalate ls).toList.splitOn '\n' = ls.map String.toList := by
    intro ls hne hls
    rw [String.toList_intercalate]
    exact List.splitOn_intercalate '\n' (by simpa using hls) (by simpa using hne)
  have hchars : ls.map String.toList = ls'.map String.toList := by
    rw [← hsplit hne hls, heq, hsplit hne' hls']
  exact List.map_injective_iff.2 (fun _ _ => String.toList_inj.1) hchars

/-- Expressions of which the outlines are the same text are the same, if their names are words, none
of their numbers is a double, and none of their applications is without parameters. -/
theorem same_of_outline_eq {text : String} (h : e.IsListed) (h' : e'.IsListed)
    (htext : e.outline? outlineIndent = .ok text) (htext' : e'.outline? outlineIndent = .ok text) :
    e.same e' = true := by
  have houtline : ∀ {e : Expr}, e.outline? outlineIndent = .ok text →
      e.outline outlineIndent = text := by
    intro e htext
    unfold outline? at htext
    cases hcheck : e.checkText with
    | error err => rw [hcheck] at htext; cases htext
    | ok u => rw [hcheck] at htext; exact Except.ok.inj htext
  have hne : ∀ e : Expr, e.outlineLines outlineIndent "" ≠ [] := fun e => by
    simp [outlineLines_eq]
  refine same_of_outlineLines_eq h h' (eq_of_intercalate_newline (hne e) (hne e')
    (newline_notMem_outlineLines h (by simp)) (newline_notMem_outlineLines h' (by simp)) ?_)
  exact (houtline htext).trans (houtline htext').symm

/-- The outline says neither where a variable is looked up nor how the integer one came about. -/
theorem same_of_outline_eq_power :
    (Expr.app .power [.sym "x1" (.stored 0), .num .unit]).IsListed ∧
    (Expr.app .power [.sym "x1" .free, .int 1]).IsListed ∧
    (Expr.app .power [.sym "x1" (.stored 0), .num .unit]).outline? outlineIndent =
      .ok "POWER\n  x1\n  1 (Integer)" ∧
    (Expr.app .power [.sym "x1" .free, .int 1]).outline? outlineIndent =
      .ok "POWER\n  x1\n  1 (Integer)" ∧
    (Expr.app .power [.sym "x1" (.stored 0), .num .unit]).same
      (.app .power [.sym "x1" .free, .int 1]) = true := by
  have hname : IsName "x1".toList := ⟨⟨'x', rfl, rfl⟩, List.all_eq_true.1 rfl⟩
  have hpower : Operator.power.IsBuiltIn := .inl Operator.isArithmetic_power
  have hnamed : ∀ role n, Number.toRat? n = some 1 →
      (Expr.app .power [.sym "x1" role, .num n]).MadeOf .named := by
    intro role n hn
    refine madeOf_app.2 ⟨hpower, ?_⟩
    simp only [List.forall_mem_cons, madeOf_sym, madeOf_num]
    exact ⟨hname, by simp [Material.named, hn], by simp⟩
  have hstored : (Expr.app .power [.sym "x1" (.stored 0), .num .unit]).IsListed :=
    IsListed.of_named (hnamed _ _ rfl) (by simp)
  have hfree : (Expr.app .power [.sym "x1" .free, .int 1]).IsListed :=
    IsListed.of_named (hnamed _ _ rfl) (by simp [int])
  have htext : (Expr.app .power [.sym "x1" (.stored 0), .num .unit]).outline? outlineIndent =
      .ok "POWER\n  x1\n  1 (Integer)" := by decide +kernel
  have htext' : (Expr.app .power [.sym "x1" .free, .int 1]).outline? outlineIndent =
      .ok "POWER\n  x1\n  1 (Integer)" := by decide +kernel
  exact ⟨hstored, hfree, htext, htext', same_of_outline_eq hstored hfree htext htext'⟩

end Expr

end Reckoner
