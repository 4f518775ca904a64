import Reckoner.Registry
import Reckoner.Proofs.Grammar.Completeness
import Reckoner.Proofs.Text.Written

/-!
# Reading printed texts

What is printed for an expression is read again, and what is read has the value of the text. It has
the value of the expression as well unless the text ties a minus sign to the base of a power that
the expression applies it to: `x*(-y^2)` is printed as `x*-y^2`, in which the grammar squares `-y`.
-/

namespace Reckoner

open Grammar Reckoner.Expr

/-! ## Texts of the built-in operators -/

/-- The lexeme is no numeral with a point and has nothing to do with definitions. -/
def Lexeme.IsPlain : Lexeme → Prop
  | .name cs => String.ofList cs ≠ "DEFINE"
  | .numeral _ fraction => fraction = none
  | .mark kind _ => kind ≠ .equals
  | .stray _ => True

instance : DecidablePred Lexeme.IsPlain := fun l =>
  match l with
  | .name cs => inferInstanceAs (Decidable (String.ofList cs ≠ "DEFINE"))
  | .numeral _ fraction => inferInstanceAs (Decidable (fraction = none))
  | .mark kind _ => inferInstanceAs (Decidable (kind ≠ .equals))
  | .stray _ => .isTrue trivial

/-- There are no doubles and no definitions in the text. -/
def IsPlainText (text : String) : Prop := ∀ l ∈ lexemes text.toList, l.IsPlain

instance (text : String) : Decidable (IsPlainText text) :=
  inferInstanceAs (Decidable (∀ l ∈ lexemes text.toList, l.IsPlain))

/-- The part of a material that is not looked up in a store. -/
def Material.unstored (M : Material) : Material where
  number := M.number
  symbol name role := M.symbol name role ∧ ∀ id, role ≠ .stored id
  operator := M.operator

theorem Expr.MadeOf.of_unstored {M : Material} {e : Expr} (h : e.MadeOf M.unstored) :
    e.MadeOf M := by
  refine Expr.MadeOf.mono ?_ ?_ ?_ h
  · exact fun _ hn => hn
  · exact fun _ _ hs => hs.1
  · exact fun _ hop => hop

theorem isSome_toRat?_of_readNumeral {position : ℕ} {ds : List Char} {n : Number}
    (h : readNumeral position ds none = .ok n) : n.toRat?.isSome = true := by
  unfold readNumeral at h
  split_ifs at h
  cases h
  rfl

theorem isSome_toRat?_of_negateExact? {n m : Number} (h : n.negateExact? = some m) :
    m.toRat?.isSome = true := by
  cases n <;> cases h <;> rfl

namespace Registry

variable {id : StoreId}

/-- A fresh registry has the three operators of arithmetic. -/
theorem isArithmetic_fresh : ((fresh id).scope id).IsArithmetic := by
  intro op hop
  rcases hop with rfl | rfl | rfl <;> rfl

/-- Apart from definitions, a fresh registry has the operators of arithmetic only. -/
theorem operator?_fresh {name : String} {op : Operator}
    (h : ((fresh id).scope id).operator? name = some op) (hname : name ≠ "DEFINE") :
    op.name = name ∧ op.IsArithmetic := by
  simp only [scope, fresh, Table.get?, List.map_cons, List.map_nil, Table.find?] at h
  split at h
  · next heq =>
    cases h
    exact ⟨by simpa using heq, Operator.isArithmetic_add⟩
  split at h
  · next heq =>
    cases h
    exact ⟨by simpa using heq, Operator.isArithmetic_multiply⟩
  split at h
  · next heq =>
    cases h
    exact ⟨by simpa using heq, Operator.isArithmetic_power⟩
  split at h
  · next heq =>
    have hdef : "DEFINE" = name := by simpa [Operator.name] using heq
    exact absurd hdef.symm hname
  · cases h

/-- A name stands for an operator or for a free symbol, since nothing is stored yet. -/
theorem symbol_fresh {name : String} {position : ℕ} {e : Expr}
    (h : ((fresh id).scope id).symbol name position = .ok e) (hname : name ≠ "DEFINE") :
    (∃ op, op.IsArithmetic ∧ e = .sym name (.operator op)) ∨ e = .free name := by
  rcases Scope.symbol_eq_ok h with ⟨-, op, hop, rfl⟩ | ⟨-, rfl⟩
  · obtain ⟨hopname, harith⟩ := operator?_fresh hop hname
    exact .inl ⟨op, harith, by rw [ofOperator, hopname]⟩
  · exact .inr rfl

/-- What a fresh registry reads from plain lexemes can be written and read again. -/
theorem gives_fresh : ((fresh id).scope id).Gives
    (fun t => t.lexeme.IsPlain ∧ ∀ cs, t.lexeme = .name cs → IsName cs)
    ((fresh id).scope id).legible.unstored where
  numeral {position ds fs n} hF h := by
    obtain rfl : fs = none := hF.1
    exact isSome_toRat?_of_readNumeral h
  negated _ h := isSome_toRat?_of_negateExact? h
  minusOne := rfl
  ratio _ _ := rfl
  arithmetic {op} hop := by
    show (((fresh id).scope id).current op).IsArithmetic
    rw [Scope.current, isArithmetic_fresh op hop]
    exact hop
  definition hF := absurd rfl hF.1
  symbol {cs position e} hF h := by
    have hname : IsName (String.ofList cs).toList := by
      rw [String.toList_ofList]
      exact hF.2 cs rfl
    rcases symbol_fresh h hF.1 with ⟨op, -, rfl⟩ | rfl
    · exact madeOf_sym.2 ⟨⟨hname, _, Scope.symbol_position h⟩, by simp⟩
    · exact madeOf_sym.2 ⟨⟨hname, _, Scope.symbol_position h⟩, by simp⟩
  call {cs position name op} hF h := by
    rcases symbol_fresh h hF.1 with ⟨op', hop', heq⟩ | heq
    · cases heq
      exact hop'
    · cases heq

/-- An expression that a plain text is read to can be written again. -/
theorem legible_of_read {depth : ℕ} {text : String} {e : Expr} (htext : IsPlainText text)
    (h : ((fresh id).scope id).readWithin depth text.toList = .ok e) :
    e.MadeOf ((fresh id).scope id).legible.unstored := by
  refine Scope.madeOf_readWithin gives_fresh (fun t ht => ?_) h
  have hmem : t.lexeme ∈ lexemes text.toList := List.mem_map_of_mem ht
  exact ⟨htext _ hmem, fun cs hcs => isName_of_mem_lexemes text.toList (hcs ▸ hmem)⟩

end Registry

/-! ## Printed expressions -/

namespace Expr

/-- An expression is printed as its text if its numbers have one. -/
theorem render_eq_ok {e : Expr} {out : String} (h : e.render = .ok out) :
    e.hasText = true ∧ out = e.text := by
  obtain ⟨_, hcheck, h⟩ := except_bind_eq_ok.1 h
  cases h
  unfold checkText at hcheck
  split_ifs at hcheck with hdeep htext
  exact ⟨htext, rfl⟩

/-- What is printed for a legible expression is read again, and has the value of the text. -/
theorem exists_readWithin_render {s : Scope} (hs : s.IsArithmetic) {e : Expr}
    (he : e.MadeOf s.legible) (hzero : e.NoZeroReciprocal) {out : String}
    (hout : e.render = .ok out) {limit : ℕ} (hdeep : e.deeperThan limit = false) :
    ∃ t, s.readWithin (limit + 1) out.toList = .ok t ∧ ∀ I, t.value I = e.textValue I := by
  obtain ⟨hhas, rfl⟩ := render_eq_ok hout
  obtain ⟨ls, es, hterms⟩ := (written_of_legible hs he hhas hzero hdeep).terms
  obtain ⟨a, ha, hvalue, -⟩ := hterms.expression hs
  refine ⟨a, Scope.readWithin_eq_ok ?_, hvalue⟩
  have hdef := Definition.intro (A := s.actions) ha .nil
  rw [List.append_nil, ← hterms.spells.lexemes] at hdef
  exact hdef

/-- What is printed for an expression that was read is read again. It has the value of the text,
which is the value of the expression if only first factors are loose. -/
theorem read_render_of_read {id : StoreId} {depth limit : ℕ} {text out : String} {e : Expr}
    (htext : IsPlainText text)
    (hread : ((Registry.fresh id).scope id).readWithin depth text.toList = .ok e)
    (hzero : e.NoZeroReciprocal) (hout : e.render = .ok out) (hdeep : e.deeperThan limit = false) :
    ∃ t, ((Registry.fresh id).scope id).readWithin (limit + 1) out.toList = .ok t ∧
      (∀ I, t.value I = e.textValue I) ∧ (e.SignsClear → ∀ I, t.value I = e.value I) := by
  have he := (Registry.legible_of_read htext hread).of_unstored
  obtain ⟨t, ht, hvalue⟩ := exists_readWithin_render Registry.isArithmetic_fresh he hzero hout hdeep
  refine ⟨t, ht, hvalue, fun hclear I => ?_⟩
  rw [hvalue, textValue_eq_value I hclear]

theorem read_render_division :
    ∃ e t, ((Registry.fresh 0).scope 0).read "x*(-y)^2*(-3*w)-3/4/z" = .ok e ∧
      e.render = .ok "x*(-y)^2*-3*w-3/4/z" ∧
      ((Registry.fresh 0).scope 0).read "x*(-y)^2*-3*w-3/4/z" = .ok t ∧
      ∀ I, t.value I = e.value I := by
  have hany : (((Registry.fresh 0).scope 0).read "x*(-y)^2*(-3*w)-3/4/z").toOption.any (fun e =>
      decide (e.NoZeroReciprocal ∧ e.render = .ok "x*(-y)^2*-3*w-3/4/z" ∧
        e.deeperThan 999 = false ∧ e.SignsClear)) = true := by
    decide +kernel
  obtain ⟨e, hread, hfacts⟩ := exists_eq_ok hany
  obtain ⟨hzero, hout, hdeep, hclear⟩ := of_decide_eq_true hfacts
  have htext : IsPlainText "x*(-y)^2*(-3*w)-3/4/z" := by decide +kernel
  obtain ⟨t, ht, -, hvalue⟩ := read_render_of_read htext hread hzero hout hdeep
  exact ⟨e, t, hread, hout, ht, hvalue hclear⟩

/-- Powers are squares but for the reciprocals, and symbols stand for one. -/
def squares : Interpretation where
  power b e := if e = -1 then b⁻¹ else b * b
  power_minusOne _ := if_pos rfl
  noPower := 0
  symbol _ := 1

/-- A loose factor that is not the first one is read again with another value. -/
theorem read_render_loose :
    ∃ e t, IsPlainText "x*(-y^2)" ∧ ((Registry.fresh 0).scope 0).read "x*(-y^2)" = .ok e ∧
      e.NoZeroReciprocal ∧ e.render = .ok "x*-y^2" ∧
      ((Registry.fresh 0).scope 0).read "x*-y^2" = .ok t ∧
      e.value squares = -1 ∧ t.value squares = 1 := by
  have hany : (((Registry.fresh 0).scope 0).read "x*(-y^2)").toOption.any (fun e =>
      decide (e.NoZeroReciprocal ∧ e.render = .ok "x*-y^2" ∧ e.value squares = -1)) = true := by
    decide +kernel
  have hany' : (((Registry.fresh 0).scope 0).read "x*-y^2").toOption.any (fun t =>
      decide (t.value squares = 1)) = true := by
    decide +kernel
  obtain ⟨e, hread, hfacts⟩ := exists_eq_ok hany
  obtain ⟨hzero, hout, he⟩ := of_decide_eq_true hfacts
  obtain ⟨t, hread', ht⟩ := exists_eq_ok hany'
  have htext : IsPlainText "x*(-y^2)" := by decide +kernel
  exact ⟨e, t, htext, hread, hzero, hout, hread', he, of_decide_eq_true ht⟩

end Expr

end Reckoner
