import Reckoner.Proofs.Grammar.Language
import Reckoner.Proofs.Grammar.Relabel
import Reckoner.Proofs.Registry

/-!
# Names of variables

The registry and the reader decide independently of each other what is the name of a variable: the
registry looks at the characters of the name, and the reader at the lexemes of a text. Both take a
letter with letters and digits after it that is not in upper case. The registry also takes such a
name with a line feed after it, which the reader drops with the other blanks, so that no text is
read as a variable of that name.
-/

namespace Reckoner

open Grammar

/-! ## Names in a text -/

/-- Variables have the names of lexemes, and none of them is in upper case. -/
def Material.lexical : Material where
  number _ := True
  symbol name role := (∀ op, role ≠ .operator op) →
    IsName name.toList ∧ Text.allUpper name = false
  operator _ := True

namespace Scope

variable {s : Scope} {name : String}

/-- The text is read as a variable of exactly that name. -/
def ReadsVariable (s : Scope) (name : String) : Prop :=
  ∃ role, (∀ op, role ≠ .operator op) ∧ s.read name = .ok (.sym name role)

theorem roleOf_ne_operator (s : Scope) (name : String) (op : Operator) :
    s.roleOf name ≠ .operator op := by
  unfold roleOf
  split
  · intro h
    cases h
  · intro h
    cases h

/-- A name is an expression of one lexeme. -/
theorem expression_name (hlower : Text.allUpper name = false) (depth : Nat) :
    Expression s.actions (termAt s.actions (depth + 1)) [.name name.toList]
      (.sym name (s.roleOf name)) := by
  have hterm : termAt s.actions (depth + 1) [.name name.toList] (.sym name (s.roleOf name)) := by
    refine Term.name fun position => ?_
    rw [String.ofList_toList]
    exact symbol_of_variable hlower position
  have hfirst := Leading.unsigned (A := s.actions)
    (.intro (.intro (.intro hterm .nil) .nil) .nil) (by simp [Unsigned])
  have hall := Expression.intro (A := s.actions) hfirst .nil
  simp only [List.append_nil] at hall
  exact hall

/-- A text of one name is read as that variable. -/
theorem read_of_lexemes_eq_name {text : String}
    (hlexemes : lexemes text.toList = [.name name.toList]) (hlower : Text.allUpper name = false) :
    s.read text = .ok (.sym name (s.roleOf name)) := by
  have hall := Definition.intro (A := s.actions) (expression_name (s := s) hlower 999) .nil
  rw [List.append_nil, ← hlexemes] at hall
  exact readWithin_eq_ok hall

theorem gives_lexical (s : Scope) :
    s.Gives (fun t => ∀ cs, t.lexeme = .name cs → IsName cs) .lexical where
  numeral _ _ := trivial
  negated _ _ := trivial
  minusOne := trivial
  ratio _ _ := trivial
  arithmetic _ := trivial
  definition _ := trivial
  symbol {cs position e} hF h := by
    have hname : IsName (String.ofList cs).toList := by
      rw [String.toList_ofList]
      exact hF cs rfl
    rcases symbol_eq_ok h with ⟨-, op, -, rfl⟩ | ⟨hlower, rfl⟩
    · exact Expr.madeOf_sym.2 fun hrole => absurd rfl (hrole op)
    · split
      · exact Expr.madeOf_sym.2 fun _ => ⟨hname, hlower⟩
      · exact Expr.madeOf_sym.2 fun _ => ⟨hname, hlower⟩
  call _ _ := trivial

/-- The texts that are read as a variable of the same name are the lexemes that are not in upper
case. -/
theorem readsVariable_iff :
    s.ReadsVariable name ↔ IsName name.toList ∧ Text.allUpper name = false := by
  constructor
  · rintro ⟨role, hrole, hread⟩
    have hmade := madeOf_readWithin (gives_lexical s) (fun t ht cs hcs => ?_) hread
    · exact Expr.madeOf_sym.1 hmade hrole
    · have hmem : t.lexeme ∈ lexemes name.toList := List.mem_map_of_mem ht
      exact isName_of_mem_lexemes name.toList (hcs ▸ hmem)
  · rintro ⟨hname, hlower⟩
    exact ⟨s.roleOf name, s.roleOf_ne_operator name,
      read_of_lexemes_eq_name (lexemes_name hname) hlower⟩

end Scope

/-! ## Names in a registry -/

theorem IsName.ne_newline {cs : List Char} (h : IsName cs) {c : Char} (hc : c ∈ cs) :
    c ≠ '\n' := by
  rintro rfl
  have hchar := h.2 _ hc
  exact absurd hchar (by decide)

theorem isName_dropFinalNewline_iff {cs : List Char} :
    IsName (dropFinalNewline cs) ↔ IsName cs ∨ ∃ ds, cs = ds ++ ['\n'] ∧ IsName ds := by
  unfold dropFinalNewline
  by_cases hlast : cs.getLast? = some '\n'
  · rw [if_pos hlast]
    obtain ⟨ds, rfl⟩ := List.getLast?_eq_some_iff.1 hlast
    rw [List.dropLast_concat]
    constructor
    · intro h
      exact .inr ⟨ds, rfl, h⟩
    · rintro (h | ⟨ds', heq, h⟩)
      · exact absurd rfl (h.ne_newline (c := '\n') (by simp))
      · exact (List.append_cancel_right heq) ▸ h
  · rw [if_neg hlast]
    constructor
    · exact .inl
    · rintro (h | ⟨ds, rfl, -⟩)
      · exact h
      · exact absurd (by simp) hlast

theorem isVariableName_iff {name : String} :
    isVariableName name = true ↔
      IsName name.toList ∨ ∃ v : String, name = v ++ "\n" ∧ IsName v.toList := by
  have hshape : isVariableName name = true ↔ IsName (dropFinalNewline name.toList) := by
    unfold isVariableName IsName
    cases dropFinalNewline name.toList with
    | nil => simp
    | cons c cs =>
      simp only [Bool.and_eq_true, List.all_eq_true, List.head?_cons, Option.mem_def,
        Option.some.injEq, exists_eq_left', List.forall_mem_cons, and_congr_right_iff,
        iff_and_self]
      intro halpha _
      simp [isNameChar, halpha]
  rw [hshape, isName_dropFinalNewline_iff]
  refine or_congr Iff.rfl ⟨?_, ?_⟩
  · rintro ⟨ds, heq, hds⟩
    refine ⟨String.ofList ds, ?_, ?_⟩
    · rw [← String.toList_inj, heq]
      simp
    · rwa [String.toList_ofList]
  · rintro ⟨v, rfl, hv⟩
    exact ⟨v.toList, by simp, hv⟩

/-- A line feed does not matter for whether a text is in upper case. -/
theorem Text.allUpper_append_newline (v : String) :
    Text.allUpper (v ++ "\n") = Text.allUpper v := by
  have hupper : Text.isUpper '\n' = false := by decide
  have hlower : Text.isLower '\n' = false := by decide
  simp [Text.allUpper, hupper, hlower]

namespace Registry

theorem exists_define_iff {r : Registry} {name : String} {value : Expr} :
    (∃ r', r.define name value = .ok r') ↔
      isVariableName name = true ∧ Text.allUpper name = false := by
  unfold define
  cases isVariableName name with
  | false => simp
  | true =>
    cases Text.allUpper name with
    | false => simp
    | true => simp

/-- The registry takes a name exactly if the reader reads it as a variable of that name, or it is
such a name with a line feed after it; and these are the names on which the two do not agree. -/
theorem exists_define_iff_readsVariable (r : Registry) (id : StoreId) (name : String)
    (value : Expr) :
    ((∃ r', r.define name value = .ok r') ↔
      (r.scope id).ReadsVariable name ∨
        ∃ v, name = v ++ "\n" ∧ (r.scope id).ReadsVariable v) ∧
    (((∃ r', r.define name value = .ok r') ↔ (r.scope id).ReadsVariable name) ↔
      ¬∃ v, name = v ++ "\n" ∧ (r.scope id).ReadsVariable v) := by
  have haccepts : (∃ r', r.define name value = .ok r') ↔
      (r.scope id).ReadsVariable name ∨
        ∃ v, name = v ++ "\n" ∧ (r.scope id).ReadsVariable v := by
    rw [exists_define_iff, isVariableName_iff, or_and_right]
    refine or_congr Scope.readsVariable_iff.symm ⟨?_, ?_⟩
    · rintro ⟨⟨v, rfl, hv⟩, hlower⟩
      rw [Text.allUpper_append_newline] at hlower
      exact ⟨v, rfl, Scope.readsVariable_iff.2 ⟨hv, hlower⟩⟩
    · rintro ⟨v, rfl, hreads⟩
      obtain ⟨hv, hlower⟩ := Scope.readsVariable_iff.1 hreads
      exact ⟨⟨v, rfl, hv⟩, (Text.allUpper_append_newline v).trans hlower⟩
  -- no name ends with a line feed, so the two cases exclude each other
  have hapart : (∃ v, name = v ++ "\n" ∧ (r.scope id).ReadsVariable v) →
      ¬(r.scope id).ReadsVariable name := by
    rintro ⟨v, rfl, -⟩ hreads
    obtain ⟨hname, -⟩ := Scope.readsVariable_iff.1 hreads
    exact hname.ne_newline (c := '\n') (by simp) rfl
  refine ⟨haccepts, ?_⟩
  rw [haccepts]
  constructor
  · intro hagree hnewline
    exact hapart hnewline (hagree.1 (.inr hnewline))
  · intro hplain
    exact ⟨fun h => h.resolve_right hplain, .inl⟩

/-- A variable can be bound under the name `x` with a line feed, and the text of that name is read
as `x`. -/
theorem define_final_newline :
    (∃ r', (fresh 0).define "x\n" (.int 1) = .ok r') ∧
      ((fresh 0).scope 0).read "x\n" = .ok (.free "x") ∧
      ¬((fresh 0).scope 0).ReadsVariable "x\n" := by
  have hlexemes : lexemes "x\n".toList = [.name "x".toList] := by decide +kernel
  have hlower : Text.allUpper "x" = false := by decide +kernel
  have hread : ((fresh 0).scope 0).read "x\n" = .ok (.free "x") :=
    Scope.read_of_lexemes_eq_name hlexemes hlower
  refine ⟨⟨_, rfl⟩, hread, ?_⟩
  rintro ⟨role, -, h⟩
  rw [hread, Except.ok.injEq, Expr.free, Expr.sym.injEq] at h
  exact absurd h.1 (by decide)

end Registry

end Reckoner
