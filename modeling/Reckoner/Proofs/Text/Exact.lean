import Reckoner.Proofs.Calculator
import Reckoner.Proofs.Evaluation.Release
import Reckoner.Proofs.Registry
import Reckoner.Proofs.Text.Acceptance
import Reckoner.Proofs.Text.Arithmetic
import Reckoner.Proofs.Text.Result

/-!
# Texts without doubles

What a text without doubles is read to can be written again, and so can its value, as long as the
variables are bound to such values. Whether the calculator takes what it prints for the two is then
seen from the expressions: an equation inside of another application and a zero after a slash are
what it does not take.
-/

namespace Reckoner

open Calculation

/-! ## Exact texts -/

/-- The lexeme is no numeral with a point. -/
def Lexeme.IsExact : Lexeme → Prop
  | .numeral _ fraction => fraction = none
  | _ => True

instance : DecidablePred Lexeme.IsExact := fun l =>
  match l with
  | .numeral _ fraction => inferInstanceAs (Decidable (fraction = none))
  | .name _ => .isTrue trivial
  | .mark _ _ => .isTrue trivial
  | .stray _ => .isTrue trivial

/-- There are no doubles in the text. -/
def IsExactText (text : String) : Prop := ∀ l ∈ lexemes text.toList, l.IsExact

instance (text : String) : Decidable (IsExactText text) :=
  inferInstanceAs (Decidable (∀ l ∈ lexemes text.toList, l.IsExact))

/-! ## What is writable for a registry -/

/-- The part of a material that is looked up in one registry. -/
def Material.storedIn (id : StoreId) (M : Material) : Material where
  number := M.number
  symbol name role := M.symbol name role ∧ ∀ id', role = .stored id' → id' = id
  operator := M.operator

theorem Expr.MadeOf.of_storedIn {M : Material} {id : StoreId} {e : Expr}
    (h : e.MadeOf (M.storedIn id)) : e.MadeOf M := by
  refine Expr.MadeOf.mono ?_ ?_ ?_ h
  · exact fun _ hn => hn
  · exact fun _ _ hs => hs.1
  · exact fun _ hop => hop

namespace Scope

/-- What the scope reads back, apart from the numbers. -/
def nameable (s : Scope) : Material where
  number _ := True
  symbol := s.writable.symbol
  operator := s.writable.operator

theorem closed_nameable {s : Scope} (hs : s.IsArithmetic) : s.nameable.Closed :=
  Material.closed_of_numbers (fun _ => trivial) fun op hop => ⟨.inl hop, hs op hop⟩

theorem writable_of_nameable {s : Scope} {e : Expr} (he : e.MadeOf s.nameable)
    (hexact : e.IsExact) : e.MadeOf s.writable := by
  induction e using Expr.induction with
  | num n =>
    have hn : n.toRat?.isSome = true := Expr.madeOf_num.1 hexact
    exact Expr.madeOf_num.2 hn
  | sym name role => exact Expr.madeOf_sym.2 (Expr.madeOf_sym.1 he)
  | app op ps ih =>
    obtain ⟨hop, hps⟩ := Expr.madeOf_app.1 he
    have hexacts := (Expr.madeOf_app.1 hexact).2
    exact Expr.madeOf_app.2 ⟨hop, fun p hp => ih p hp (hps p hp) (hexacts p hp)⟩

/-- Whether a name is read as a symbol depends on the operators only: it is one whether or not there
is a variable of the name. -/
theorem exists_symbol_congr {s s' : Scope} {name : String} (h : s.operator? = s'.operator?)
    (hs : ∃ role, ∀ position, s.symbol name position = .ok (.sym name role)) :
    ∃ role, ∀ position, s'.symbol name position = .ok (.sym name role) := by
  obtain ⟨role, hrole⟩ := hs
  rcases symbol_eq_ok (hrole 0) with ⟨hupper, op, hop, heq⟩ | ⟨hlower, -⟩
  · refine ⟨role, fun position => ?_⟩
    rw [h] at hop
    rw [symbol, if_pos hupper, hop, heq]
  · refine ⟨if s'.isDefined name then .stored s'.store else .free, fun position => ?_⟩
    rw [symbol, if_neg (by simp [hlower])]
    split <;> rfl

theorem writable_congr {s s' : Scope} (h : s.operator? = s'.operator?) :
    s.writable = s'.writable := by
  have hsymbols : s.writable.symbol = s'.writable.symbol := by
    funext name role
    refine propext ⟨fun hs => ⟨hs.1, ?_⟩, fun hs => ⟨hs.1, ?_⟩⟩
    · exact exists_symbol_congr h hs.2
    · exact exists_symbol_congr h.symm hs.2
  have hoperators : s.writable.operator = s'.writable.operator := by
    unfold writable
    rw [h]
  show Material.mk s.writable.number s.writable.symbol s.writable.operator =
    Material.mk s.writable.number s'.writable.symbol s'.writable.operator
  rw [hsymbols, hoperators]

end Scope

namespace Registry

variable {id : StoreId} {r r' : Registry}

theorem operator?_define (hr : r.operators = (fresh id).operators) :
    (r.scope id).operator? "DEFINE" = some (.define id) := by
  show r.operators.get? "DEFINE" = some (.define id)
  rw [hr]
  rfl

/-- The operators that can be called are the built-in ones, and all of them can be written. -/
theorem writable_operator (hr : r.operators = (fresh id).operators) {name : String} {op : Operator}
    (h : (r.scope id).operator? name = some op) :
    op.name = name ∧ (r.scope id).writable.operator op := by
  have hfacts : op.name = name ∧ op.IsBuiltIn := by
    by_cases hname : name = "DEFINE"
    · subst hname
      rw [operator?_define hr] at h
      cases h
      exact ⟨rfl, .inr ⟨id, rfl⟩⟩
    · obtain ⟨hop, harith⟩ := (isBuiltIn_scope hr).only h hname
      exact ⟨hop, .inl harith⟩
  refine ⟨hfacts.1, hfacts.2, ?_⟩
  rw [hfacts.1]
  exact h

/-- An operator that takes the place of a built-in one can be written. -/
theorem writable_current (hr : r.operators = (fresh id).operators) {op : Operator}
    (hop : (r.scope id).writable.operator op) :
    (r.scope id).writable.operator ((r.scope id).current op) :=
  Scope.operator_current (fun _ _ h => (writable_operator hr h).2) hop

/-- The symbol that a name is read to is written by the name. -/
theorem writable_symbol (hr : r.operators = (fresh id).operators) {name : String} {position : ℕ}
    {e : Expr} (hname : IsName name.toList) (h : (r.scope id).symbol name position = .ok e) :
    e.MadeOf ((r.scope id).writable.storedIn id) := by
  have hwritable : ∀ role, e = .sym name role → (r.scope id).writable.symbol name role := by
    rintro role rfl
    exact ⟨hname, role, Scope.symbol_position h⟩
  rcases Scope.symbol_eq_ok h with ⟨-, op, hop, rfl⟩ | ⟨-, rfl⟩
  · obtain ⟨hopname, -⟩ := writable_operator hr hop
    rw [Expr.ofOperator, hopname] at hwritable ⊢
    exact Expr.madeOf_sym.2 ⟨hwritable _ rfl, by simp⟩
  · split_ifs at hwritable ⊢
    · refine Expr.madeOf_sym.2 ⟨hwritable _ rfl, ?_⟩
      rintro _ ⟨⟩
      rfl
    · exact Expr.madeOf_sym.2 ⟨hwritable _ rfl, by simp⟩

/-- What exact lexemes give can be written, and its variables are those of the registry. -/
theorem gives_exact (hr : r.operators = (fresh id).operators) : (r.scope id).Gives
    (fun t => t.lexeme.IsExact ∧ ∀ cs, t.lexeme = .name cs → IsName cs)
    ((r.scope id).writable.storedIn id) where
  numeral {position ds fs n} hF h := by
    obtain rfl : fs = none := hF.1
    exact isSome_toRat?_of_readNumeral h
  negated _ h := isSome_toRat?_of_negateExact? h
  minusOne := rfl
  ratio _ _ := rfl
  arithmetic hop := writable_current hr ⟨.inl hop, (isBuiltIn_scope hr).arithmetic _ hop⟩
  definition _ := writable_current hr ⟨.inr ⟨id, rfl⟩, operator?_define hr⟩
  symbol {cs position e} hF h := by
    refine writable_symbol hr ?_ h
    rw [String.toList_ofList]
    exact hF.2 cs rfl
  call {cs position name op} _ h := by
    rcases Scope.symbol_eq_ok h with ⟨-, op', hop', heq⟩ | ⟨-, heq⟩
    · cases heq
      exact (writable_operator hr hop').2
    · split at heq <;> cases heq

/-- What can be written for a registry is what can be written for the fresh one. -/
theorem writable_scope (hr : r.operators = (fresh id).operators) :
    (r.scope id).writable = ((fresh id).scope id).writable :=
  Scope.writable_congr (by simp only [scope, hr])

/-- An expression that a text without doubles is read to can be written. -/
theorem writable_of_read {depth : ℕ} {text : String} {e : Expr}
    (hr : r.operators = (fresh id).operators) (htext : IsExactText text)
    (h : (r.scope id).readWithin depth text.toList = .ok e) :
    e.MadeOf (((fresh id).scope id).writable.storedIn id) := by
  rw [← writable_scope hr]
  refine Scope.madeOf_readWithin (gives_exact hr) (fun t ht => ?_) h
  have hmem : t.lexeme ∈ lexemes text.toList := List.mem_map_of_mem ht
  exact ⟨htext _ hmem, fun cs hcs => isName_of_mem_lexemes text.toList (hcs ▸ hmem)⟩

/-- What is printed for an expression that can be written is read for the registry exactly if
equations stand outside of everything else and no zero after a slash. -/
theorem exists_readWithin_render_iff (hr : r.operators = (fresh id).operators) {e : Expr}
    (he : e.MadeOf ((fresh id).scope id).writable) {out : String} {limit : ℕ}
    (hout : e.render = .ok out) (hdeep : e.deeperThan limit = false) :
    (∃ t, (r.scope id).readWithin (limit + 1) out.toList = .ok t) ↔
      e.equationsOutside = true ∧ e.NoZeroDivisor := by
  rw [← writable_scope hr] at he
  exact Expr.exists_readWithin_render_iff (isBuiltIn_scope hr).arithmetic he hout hdeep

/-! ## Values that can be written -/

/-- The operators are the built-in ones, and the values of the variables are made of the material.
-/
structure Holds (id : StoreId) (M : Material) (r : Registry) : Prop where
  operators : r.operators = (fresh id).operators
  bindings : r.Binds fun e => e.MadeOf M

theorem holds_fresh (id : StoreId) (M : Material) : (fresh id).Holds id M := ⟨rfl, binds_fresh id⟩

theorem Holds.define {M : Material} {name : String} {value : Expr} (hr : r.Holds id M)
    (hv : value.MadeOf M) (h : r.define name value = .ok r') : r'.Holds id M := by
  refine ⟨?_, hr.bindings.define hv h⟩
  obtain rfl := eq_of_define h
  exact hr.operators

/-- What can be written has values of any closed material that has its numbers and its symbols:
definitions are carried out, and the other operators are simplified. -/
theorem yields_writable (id : StoreId) {M : Material} (hM : M.Closed)
    (hnumber : ∀ {n}, ((fresh id).scope id).writable.number n → M.number n)
    (hsymbol : ∀ {name role}, ((fresh id).scope id).writable.symbol name role →
      ∀ role', M.symbol name role') :
    (((fresh id).scope id).writable.storedIn id).Yields (fun s => (s.registry id).Holds id M)
      fun e => e.MadeOf M where
  number h := Expr.madeOf_num.2 (hnumber h)
  symbol h _ := Expr.madeOf_sym.2 (hsymbol h.1 _)
  stored {name id' s} h hs := by
    obtain rfl := h.2 id' rfl
    exact hs.bindings.lookup (Expr.madeOf_sym.2 (hsymbol h.1 _))
  bound {id' s name value r} hop hs hv h := by
    have hdefine : ((fresh id).scope id).operator? "DEFINE" = some (.define id') := hop.2
    rw [operator?_define rfl] at hdefine
    cases hdefine
    rw [Stores.registry_put, if_pos rfl]
    exact hs.define hv h
  reduce {op ps e} hop hproper hps h := by
    have hoperator : M.operator op := by
      rcases hop.1 with (rfl | rfl | rfl) | ⟨id', rfl⟩
      · exact hM.add
      · exact hM.multiply
      · exact hM.power
      · exact absurd rfl (hproper id')
    exact Simplify.madeOf_reduce hM hoperator hps h

end Registry

namespace Calculator

variable {c : Calculator} {text : String} {s : Stores} {t : Expr}

theorem read_eq_ok (h : (c.read text s).value = .ok t) :
    ((s.registry c.store).scope c.store).read text = .ok t := by
  cases hread : ((s.registry c.store).scope c.store).read text with
  | error e =>
    rw [read_of_error hread] at h
    cases h
  | ok e =>
    rw [read_of_ok hread] at h
    cases h
    rfl

theorem keeps_evaluate_writable {M : Material} (hM : M.Closed)
    (hnumber : ∀ {n}, ((Registry.fresh c.store).scope c.store).writable.number n → M.number n)
    (hsymbol : ∀ {name role}, ((Registry.fresh c.store).scope c.store).writable.symbol name role →
      ∀ role', M.symbol name role')
    (ht : t.MadeOf (((Registry.fresh c.store).scope c.store).writable.storedIn c.store)) :
    Keeps (fun s => (s.registry c.store).Holds c.store M) (c.evaluate t) fun e => e.MadeOf M := by
  unfold evaluate
  refine Keeps.bind
    (Expr.keeps_evaluate (Registry.yields_writable _ hM hnumber hsymbol) ht).mapError fun r hr => ?_
  exact Keeps.bind Keeps.note fun _ _ => Keeps.pure hr

/-- What is printed for a text without doubles, or for its value if there are no doubles in it, can
be typed back exactly if equations stand outside of everything else and no zero after a slash. -/
theorem read_render_iff
    (hholds : (s.registry c.store).Holds c.store ((Registry.fresh c.store).scope c.store).nameable)
    (htext : IsExactText text) (hread : (c.read text s).value = .ok t) :
    (∀ out limit, t.render = .ok out → t.deeperThan limit = false →
      ((∃ a, ((s.registry c.store).scope c.store).readWithin (limit + 1) out.toList = .ok a) ↔
        t.equationsOutside = true ∧ t.NoZeroDivisor)) ∧
    ∀ r, (c.evaluate t s).value = .ok r → r.IsExact →
      ∀ out limit, r.render = .ok out → r.deeperThan limit = false →
        ((∃ a, (((c.evaluate t s).stores.registry c.store).scope c.store).readWithin (limit + 1)
            out.toList = .ok a) ↔
          r.equationsOutside = true ∧ r.NoZeroDivisor) := by
  have ht := Registry.writable_of_read hholds.operators htext (read_eq_ok hread)
  have hclosed := Scope.closed_nameable (@Registry.isArithmetic_fresh c.store)
  obtain ⟨hafter, hvalue⟩ :=
    keeps_evaluate_writable hclosed (fun _ => trivial) (fun h _ => h) ht s hholds
  constructor
  · intro out limit hout hdeep
    exact Registry.exists_readWithin_render_iff hholds.operators ht.of_storedIn hout hdeep
  · intro r hr hexact out limit hout hdeep
    have hr' := Scope.writable_of_nameable (hvalue r hr) hexact
    exact Registry.exists_readWithin_render_iff hafter.operators hr' hout hdeep

theorem holds_doubledStores :
    (doubledStores.registry 0).Holds 0 ((Registry.fresh 0).scope 0).nameable := by
  have hz : IsName "z".toList := ⟨⟨'z', by decide, rfl⟩, List.all_eq_true.1 rfl⟩
  have hsymbol : (Expr.free "z").MadeOf ((Registry.fresh 0).scope 0).nameable :=
    Expr.madeOf_sym.2 ⟨hz, .free, fun _ => rfl⟩
  have hvalue : (Expr.app .multiply [.int 2, .free "z"]).MadeOf
      ((Registry.fresh 0).scope 0).nameable := by
    refine Expr.madeOf_app.2 ⟨⟨.inl Operator.isArithmetic_multiply, rfl⟩, ?_⟩
    exact List.forall_mem_cons.2 ⟨Expr.madeOf_num.2 trivial, List.forall_mem_singleton.2 hsymbol⟩
  have hdefine : (Registry.fresh 0).define "x" (.app .multiply [.int 2, .free "z"]) =
      .ok (doubledStores.registry 0) := rfl
  exact (Registry.holds_fresh 0 _).define hvalue hdefine

/-- A definition that is called, of a variable by another one. -/
theorem read_render_iff_definition :
    ∃ t r a b,
      ((Calculator.mk 0).read "DEFINE(y,x*(-3)/4-ADD(1,POWER(w,2)))" doubledStores).value = .ok t ∧
      t.render = .ok "y=x*(-3/4)-(1+w^2)" ∧
      ((doubledStores.registry 0).scope 0).read "y=x*(-3/4)-(1+w^2)" = .ok a ∧
      ((Calculator.mk 0).evaluate t doubledStores).value = .ok r ∧
      r.render = .ok "-3/2*z-(1+w^2)" ∧
      ((((Calculator.mk 0).evaluate t doubledStores).stores.registry 0).scope 0).read
        "-3/2*z-(1+w^2)" = .ok b := by
  have hany : ((Calculator.mk 0).read "DEFINE(y,x*(-3)/4-ADD(1,POWER(w,2)))"
      doubledStores).value.toOption.any (fun t =>
        decide (t.render = .ok "y=x*(-3/4)-(1+w^2)" ∧ t.deeperThan 999 = false ∧
          t.equationsOutside = true ∧ t.NoZeroDivisor) &&
        ((Calculator.mk 0).evaluate t doubledStores).value.toOption.any fun r =>
          decide (r.IsExact ∧ r.render = .ok "-3/2*z-(1+w^2)" ∧ r.deeperThan 999 = false ∧
            r.equationsOutside = true ∧ r.NoZeroDivisor)) = true := by
    decide +kernel
  obtain ⟨t, hread, hfacts⟩ := exists_eq_ok hany
  obtain ⟨ht, hvalue⟩ := Bool.and_eq_true_iff.1 hfacts
  obtain ⟨r, hr, hr'⟩ := exists_eq_ok hvalue
  obtain ⟨hout, hdeep, hclear⟩ := of_decide_eq_true ht
  obtain ⟨hexact, hout', hdeep', hclear'⟩ := of_decide_eq_true hr'
  have htext : IsExactText "DEFINE(y,x*(-3)/4-ADD(1,POWER(w,2)))" := by decide +kernel
  obtain ⟨hexpression, hresult⟩ := @read_render_iff ⟨0⟩ _ _ _ holds_doubledStores htext hread
  obtain ⟨a, ha⟩ := (hexpression _ _ hout hdeep).2 hclear
  obtain ⟨b, hb⟩ := (hresult r hr hexact _ _ hout' hdeep').2 hclear'
  exact ⟨t, r, a, b, hread, hout, ha, hr, hout', hb⟩

/-- An equation inside of a sum, and a reciprocal of zero after a factor: what is printed for the
expressions is not read. -/
theorem read_render_refused :
    (∃ t, IsExactText "DEFINE(x,1)+2" ∧
      ((Calculator.mk 0).read "DEFINE(x,1)+2" .fresh).value = .ok t ∧
      t.render = .ok "(x=1)+2" ∧
      ((Registry.fresh 0).scope 0).read "(x=1)+2" = .error (.missingClose 0)) ∧
    ∃ t r, IsExactText "x*0^(-1)" ∧
      ((Calculator.mk 0).read "x*0^(-1)" .fresh).value = .ok t ∧ t.render = .ok "x/0" ∧
      ((Calculator.mk 0).evaluate t .fresh).value = .ok r ∧ r.render = .ok "x/0" ∧
      ((Registry.fresh 0).scope 0).read "x/0" = .error (.divisionByZero 1) := by
  have hany : ((Calculator.mk 0).read "DEFINE(x,1)+2" .fresh).value.toOption.any (fun t =>
      decide (t.render = .ok "(x=1)+2")) = true := by
    decide +kernel
  have hany' : ((Calculator.mk 0).read "x*0^(-1)" .fresh).value.toOption.any (fun t =>
      decide (t.render = .ok "x/0") &&
        ((Calculator.mk 0).evaluate t .fresh).value.toOption.any fun r =>
          decide (r.render = .ok "x/0")) = true := by
    decide +kernel
  obtain ⟨t, hread, hout⟩ := exists_eq_ok hany
  obtain ⟨t', hread', hfacts⟩ := exists_eq_ok hany'
  obtain ⟨hout', hvalue⟩ := Bool.and_eq_true_iff.1 hfacts
  obtain ⟨r, hr, hout''⟩ := exists_eq_ok hvalue
  refine ⟨⟨t, by decide +kernel, hread, of_decide_eq_true hout, ?_⟩,
    t', r, by decide +kernel, hread', of_decide_eq_true hout', hr, of_decide_eq_true hout'', ?_⟩
  · exact eq_error_of_map (by decide +kernel)
  · exact eq_error_of_map (by decide +kernel)

end Calculator

end Reckoner
