import Reckoner.Workspace
import Reckoner.Proofs.Calculator
import Reckoner.Proofs.Grammar.Material
import Reckoner.Proofs.Registry
import Reckoner.Proofs.Simplify.Normal

/-!
# Sessions

A session starts with a fresh workspace, performs requests and builds expressions. What all its
requests keep is proved once, for any `Registry.Invariant` of registries, kept expressions and
values. As long as every variable is bound to the value of an expression, and no extension takes the
name of an arithmetic operator, the values of all variables are normal, and so is whatever an
expression is evaluated to.
-/

namespace Reckoner

/-! ## Ordinary expressions -/

/-- Everything but extensions that go by the name of an arithmetic operator. -/
def Material.ordinary : Material where
  number _ := True
  symbol _ _ := True
  operator op := op.IsOrdinary

/-- Every operator of the expression is ordinary. -/
def Expr.IsOrdinary (e : Expr) : Prop := e.MadeOf .ordinary

/-- A value in normal form is an ordinary expression again, so it can be bound and used. -/
theorem Expr.Normal.isOrdinary {e : Expr} (h : e.Normal) : e.IsOrdinary := by
  induction e using Expr.induction with
  | num n => exact madeOf_num.2 trivial
  | sym name role => exact madeOf_sym.2 trivial
  | app op ps ih =>
    obtain ⟨hnode, hps⟩ := normal_app.1 h
    exact madeOf_app.2 ⟨hnode.isProper.1, fun p hp => ih p hp (hps p hp)⟩

/-! ## Registries -/

/-- The operators are ordinary, and the values of the variables are normal. -/
structure Registry.Sound (r : Registry) : Prop where
  operators : ∀ name op, r.operators.get? name = some op → op.IsOrdinary
  bindings : ∀ name e, r.bindings.get? name = some e → e.Normal

/-- Every registry is sound. -/
def Stores.Sound (s : Stores) : Prop := ∀ id, (s.registry id).Sound

namespace Registry

theorem sound_fresh (id : StoreId) : (fresh id).Sound :=
  ⟨operators_fresh (fun _ hop => hop.isOrdinary) Operator.isOrdinary_define, binds_fresh id⟩

/-- Binding a normal value keeps a registry sound. -/
theorem Sound.define {r r' : Registry} {name : String} {value : Expr} (hr : r.Sound)
    (hv : value.Normal) (h : r.define name value = .ok r') : r'.Sound := by
  refine ⟨?_, Binds.define hr.bindings hv h⟩
  obtain rfl := eq_of_define h
  exact hr.operators

theorem Sound.register {r r' : Registry} {op : Operator} (hr : r.Sound) (hop : op.IsOrdinary)
    (h : r.register op = .ok r') : r'.Sound := by
  obtain rfl := eq_of_register h
  refine ⟨fun name op' hop' => ?_, hr.bindings⟩
  simp only [Table.get?_set] at hop'
  split at hop'
  · exact Option.some.inj hop' ▸ hop
  · exact hr.operators name op' hop'

theorem Sound.undefine {r : Registry} (name : String) (hr : r.Sound) : (r.undefine name).Sound :=
  ⟨hr.operators, Binds.undefine hr.bindings name⟩

theorem Sound.clear {r : Registry} (hr : r.Sound) : r.clear.Sound := ⟨hr.operators, Binds.clear⟩

/-- What is read with a sound registry is ordinary. -/
theorem Sound.gives {r : Registry} (hr : r.Sound) (id : StoreId) :
    (r.scope id).Gives (fun _ => True) .ordinary := by
  refine Scope.gives_of_operators (fun _ => trivial) (fun _ _ _ => trivial) ?_ ?_ ?_
  · exact fun _ hop => Scope.operator_current hr.operators hop.isOrdinary
  · exact fun _ _ _ => Scope.operator_current hr.operators Operator.isOrdinary_define
  · exact fun _ _ _ _ hop => hr.operators _ _ hop

end Registry

/-! ## Requests -/

/-- The request binds no variable to an unevaluated expression, and gives the name of an arithmetic
operator to no extension. -/
def Request.IsSound : Request → Prop
  | .assign _ _ => False
  | .register name => ∀ op : Operator, op.IsArithmetic → name ≠ op.name
  | _ => True

/-- The workspaces that sessions lead to. -/
inductive Workspace.Reached : Workspace → Prop where
  /-- A session starts afresh. -/
  | fresh : Reached .fresh
  /-- A calculator performs a request. -/
  | perform {w : Workspace} (name : String) {request : Request} (h : Reached w)
      (hr : request.IsSound) : Reached (w.perform name request).2
  /-- An expression is built by hand and kept. -/
  | build {w : Workspace} (name : String) {e : Expr} (h : Reached w) (he : e.IsOrdinary) :
      Reached { w with trees := w.trees.set name e }

/-! ## Invariants -/

/-- Every registry has `R`. -/
def Stores.All (R : Registry → Prop) (s : Stores) : Prop := ∀ id, R (s.registry id)

theorem Stores.All.put {R : Registry → Prop} {s : Stores} {id : StoreId} {r : Registry}
    (hs : s.All R) (hr : R r) : (s.put id r).All R := by
  intro id'
  rw [Stores.registry_put]
  split
  · exact hr
  · exact hs id'

/-- Sessions keep `R` of registries, `T` of the expressions they keep and `P` of values. -/
structure Registry.Invariant (R : Registry → Prop) (T P : Expr → Prop) : Prop where
  fresh : ∀ id, R (.fresh id)
  define : ∀ {r r' name value}, R r → P value → r.define name value = .ok r' → R r'
  register : ∀ {r r' name}, R r → (Request.register name).IsSound →
    r.register (.extension (.ofName name)) = .ok r' → R r'
  undefine : ∀ {r} name, R r → R (r.undefine name)
  clear : ∀ {r}, R r → R r.clear
  build : ∀ {e : Expr}, e.IsOrdinary → T e
  read : ∀ {r id text e}, R r → (r.scope id).read text = .ok e → T e
  evaluate : ∀ {e}, T e → Calculation.Keeps (Stores.All R) e.evaluate P
  value : ∀ {e}, P e → T e

namespace Registry.Invariant

open Calculation

variable {R : Registry → Prop} {T P : Expr → Prop} (h : Invariant R T P)

include h

/-- Every request of a calculator keeps the invariant. -/
theorem obeys (c : Calculator) : c.Obeys (Keeps (Stores.All R)) R T P where
  logic := logic_keeps
  note := Keeps.note
  mapError := Keeps.mapError
  registry := Keeps.registry fun _ hs => hs c.store
  reads := h.read
  evaluates := h.evaluate
  assigns hvalue := Expr.keeps_assign fun _ _ hs hr => hs.put (h.define (hs c.store) hvalue hr)
  undefines name hr := Keeps.put fun _ hs => hs.put (h.undefine name hr)
  clears hr := Keeps.put fun _ hs => hs.put (h.clear hr)

end Registry.Invariant

/-- The registries have `R`, and the expressions that are kept have `T`. -/
structure Workspace.Has (R : Registry → Prop) (T : Expr → Prop) (w : Workspace) : Prop where
  stores : w.stores.All R
  trees : ∀ name e, w.trees.get? name = some e → T e

namespace Workspace

open Calculation

variable {w : Workspace} {R : Registry → Prop} {T P : Expr → Prop} {α : Type} {Q : α → Prop}

theorem Has.set (hw : w.Has R T) (tree : String) {e : Expr} (he : T e) :
    Has R T { w with trees := w.trees.set tree e } := by
  refine ⟨hw.stores, fun name e' he' => ?_⟩
  simp only [Table.get?_set] at he'
  split at he'
  · exact Option.some.inj he' ▸ he
  · exact hw.trees name e' he'

theorem Has.calculator (hw : w.Has R T) (name : String) : (w.calculator name).2.Has R T := by
  unfold Workspace.calculator
  split
  · exact hw
  · exact ⟨hw.stores, hw.trees⟩

/-- A calculation that keeps the registries keeps the workspace, and its result is what it is judged
to be. -/
theorem Has.run (hw : w.Has R T) {x : Calculation α} (hx : Keeps (Stores.All R) x Q) :
    (w.run x).2.Has R T ∧ ∀ a, (w.run x).1 = .ok a → Q a := by
  obtain ⟨hs, hQ⟩ := hx w.stores hw.stores
  exact ⟨⟨hs, hw.trees⟩, fun a ha => hQ a (mapError_eq_ok.1 ha)⟩

theorem Has.answer (hw : w.Has R T) {f : α → Answer} {x : Calculation α}
    (hx : Keeps (Stores.All R) x Q) : (w.answer f x).2.Has R T :=
  (hw.run hx).1

theorem Has.keep (hw : w.Has R T) {tree : String} {x : Calculation Expr}
    (hx : Keeps (Stores.All R) x T) : (w.keep tree x).2.Has R T := by
  obtain ⟨hw', hQ⟩ := hw.run hx
  unfold Workspace.keep
  split
  · next e w' heq =>
    rw [heq] at hw' hQ
    exact hw'.set tree (hQ e rfl)
  · next e w' heq =>
    rw [heq] at hw'
    exact hw'

/-- A request about a kept tree may rely on what kept trees are. -/
theorem Has.withTree (hw : w.Has R T) {tree : String}
    {f : Expr → Except RequestError Answer × Workspace} (hf : ∀ e, T e → (f e).2.Has R T) :
    (w.withTree tree f).2.Has R T := by
  unfold Workspace.withTree
  split
  · next e he => exact hf e (hw.trees tree e he)
  · exact hw

/-- What a request does to a workspace. -/
theorem Has.handle (hw : w.Has R T) (h : Registry.Invariant R T P) (name : String)
    (c : Calculator) {request : Request} (hr : request.IsSound) :
    (w.handle name c request).2.Has R T := by
  cases request with
  | share other =>
    have hw' := hw.calculator other
    exact ⟨hw'.stores, hw'.trees⟩
  | calculate text => exact hw.answer ((h.obeys c).calculate text)
  | read tree text => exact hw.keep ((h.obeys c).read text)
  | evaluate source tree =>
    exact hw.withTree fun e he => hw.keep (((h.obeys c).evaluate he).mono fun _ => h.value)
  | render tree =>
    exact hw.withTree fun e _ => hw.answer (Q := fun _ => True) (Keeps.ofExcept fun _ _ => trivial)
  | outline tree indent =>
    exact hw.withTree fun e _ => hw.answer (Q := fun _ => True) (Keeps.ofExcept fun _ _ => trivial)
  -- comparing and looking things up leave the workspace alone, whatever they find
  | same tree other =>
    refine hw.withTree fun e _ => hw.withTree fun e' _ => ?_
    split
    · exact hw
    · split
      · exact hw
      · exact hw
  | define name text => exact hw.answer ((h.obeys c).define name text)
  -- a kept tree need not be a value, so this is not a sound request
  | assign name tree => exact hr.elim
  | undefine name => exact hw.answer ((h.obeys c).undefine name)
  | clear => exact hw.answer (h.obeys c).clear
  | isDefined name => exact hw
  | value name => exact hw
  | operators =>
    refine hw.answer (Q := fun _ => True) ?_
    exact Keeps.bind (Keeps.registry (Q := fun _ => True) fun _ _ => trivial) fun _ _ =>
      Keeps.pure trivial
  | lookup name => exact hw
  | register name =>
    simp only [Workspace.handle]
    split
    · next r heq => exact ⟨hw.stores.put (h.register (hw.stores c.store) hr heq), hw.trees⟩
    · exact hw
  | substitution name =>
    refine hw.answer (Q := fun _ => True) ?_
    exact Keeps.bind (Keeps.registry (Q := fun _ => True) fun _ _ => trivial) fun _ _ =>
      Keeps.pure trivial
  | display => exact hw
  | commonCalculate text =>
    have hread := (h.obeys ⟨w.common⟩).read text
    exact hw.answer (hread.bind fun e he => h.evaluate he)
  | commonRead tree text => exact hw.keep ((h.obeys ⟨w.common⟩).read text)
  | commonEvaluate tree => exact hw.withTree fun e he => hw.answer (h.evaluate he)
  | commonReset => exact ⟨hw.stores, hw.trees⟩
  | commonVariables => exact hw

/-- Sessions lead to workspaces that have what their requests keep. -/
theorem Reached.has (hw : w.Reached) (h : Registry.Invariant R T P) : w.Has R T := by
  induction hw with
  | fresh => exact ⟨h.fresh, fun _ _ he => by simp [Workspace.fresh] at he⟩
  | perform name _ hr ih => exact (ih.calculator name).handle h name _ hr
  | build name _ he ih => exact ih.set name (h.build he)

end Workspace

/-! ## Normal values -/

/-- In sound registries the variables of an ordinary expression have normal values. -/
theorem Material.yields_ordinary : Material.ordinary.Yields Stores.Sound Expr.Normal where
  number _ := Expr.normal_num
  symbol _ _ := Expr.normal_sym
  stored _ hs := Registry.Binds.lookup (hs _).bindings Expr.normal_sym
  bound _ hs hv h := Stores.All.put hs ((hs _).define hv h)
  reduce hop hdef hps h := Simplify.normal_reduce ⟨hop, hdef⟩ hps h

theorem Extension.name_ofName (name : String) : (Extension.ofName name).name = name := by
  unfold ofName
  cases h : all.find? (·.name == name) with
  | none => rfl
  | some x => simpa using List.find?_some h

/-- Sound registries, ordinary trees and normal values are an invariant of all requests. -/
theorem Registry.invariant_sound : Invariant Sound Expr.IsOrdinary Expr.Normal where
  fresh := sound_fresh
  define := Sound.define
  register {r r' name} hr hname h := by
    refine hr.register (fun op hop heq => ?_) h
    exact absurd ((Extension.name_ofName name).symm.trans heq) (hname op hop)
  undefine := Sound.undefine
  clear := Sound.clear
  build he := he
  read {r id text e} hr he := Scope.madeOf_readWithin (hr.gives id) (fun _ _ => trivial) he
  evaluate := Expr.keeps_evaluate Material.yields_ordinary
  value := Expr.Normal.isOrdinary

/-- The registries are sound, and the expressions that are kept are ordinary. -/
structure Workspace.Sound (w : Workspace) : Prop where
  stores : w.stores.Sound
  trees : ∀ name e, w.trees.get? name = some e → e.IsOrdinary

namespace Workspace

variable {w : Workspace}

/-- Sessions lead to sound workspaces. -/
theorem Reached.sound (h : w.Reached) : w.Sound := by
  have hw := h.has Registry.invariant_sound
  exact ⟨hw.stores, hw.trees⟩

/-- In every session, the value of an expression is in normal form. -/
theorem normal_of_reached (hw : w.Reached) {t r : Expr} (ht : t.IsOrdinary)
    (hr : (t.evaluate w.stores).value = .ok r) : r.Normal :=
  (Expr.keeps_evaluate Material.yields_ordinary ht w.stores hw.sound.stores).2 r hr

/-- A session in which `y` is bound to the value of `x * 2`. -/
def doubling : Workspace :=
  let definition : Expr :=
    .app (.define 1) [.free "y", .app .multiply [.free "x", .int 2]]
  (({ fresh with trees := fresh.trees.set "definition" definition } : Workspace).perform "calculator"
    (.evaluate "definition" "value")).2

theorem reached_doubling : doubling.Reached :=
  .perform "calculator" (.build "definition" .fresh
    (by simp [Expr.IsOrdinary, Material.ordinary, Expr.free, Expr.int, Operator.isOrdinary_define,
      Operator.isArithmetic_multiply.isOrdinary])) trivial

/-- There the sum `y + x*x*3 + 5 + 2` is evaluated to the normal form `2*x + 3*x^2 + 7`. -/
theorem normal_of_reached_doubling :
    let t : Expr := .app .add [.sym "y" (.stored 1), .app .multiply [.free "x", .free "x", .int 3],
      .int 5, .int 2]
    let r : Expr := .app .add [.app .multiply [.int 2, .free "x"],
      .app .multiply [.int 3, .app .power [.free "x", .int 2]], .int 7]
    t.IsOrdinary ∧ (t.evaluate doubling.stores).value = .ok r ∧ r.Normal := by
  intro t r
  have ht : t.IsOrdinary := by
    simp [t, Expr.IsOrdinary, Material.ordinary, Expr.free, Expr.int,
      Operator.isArithmetic_add.isOrdinary, Operator.isArithmetic_multiply.isOrdinary]
  have hr : (t.evaluate doubling.stores).value = .ok r := by rfl
  exact ⟨ht, hr, normal_of_reached reached_doubling ht hr⟩

end Workspace

end Reckoner
