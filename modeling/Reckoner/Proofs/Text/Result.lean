import Reckoner.Proofs.Evaluation
import Reckoner.Proofs.Meaning
import Reckoner.Proofs.Simplify.Normal
import Reckoner.Proofs.Text.RoundTrip

/-!
# Reading printed results

The value of a text is in normal form, and as long as there are no doubles it is made of what can be
read again. A factor that starts with a minus sign is a number then, so no factor is loose, and the
printed result is read again with the value of the result.
-/

namespace Reckoner

open Calculation

/-- No factor of a normal product is loose. -/
theorem Expr.Normal.signsClear {e : Expr} (h : e.Normal) : e.SignsClear := by
  refine h.mono fun op ps hnode hop p hp => ?_
  subst hop
  have hflat := hnode.1.flat p (List.mem_of_mem_tail hp)
  cases p with
  | num n => simp [isLoose, startsWithPower]
  | sym name role => simp [isLoose, startsWithPower]
  | app op qs =>
    cases op with
    | multiply => simp [hasHead] at hflat
    | _ => simp [isLoose, startsWithMinus]

namespace Scope

theorem closed_legible (s : Scope) : s.legible.Closed :=
  Material.closed_of_exact (fun _ => Iff.rfl) fun _ hop => hop

theorem yields_legible (s : Scope) (S : Stores → Prop) :
    s.legible.unstored.Yields S fun e => e.MadeOf s.legible ∧ e.Normal where
  number h := ⟨Expr.madeOf_num.2 h, Expr.normal_num⟩
  symbol h _ := ⟨Expr.madeOf_sym.2 h.1, Expr.normal_sym⟩
  stored h _ := absurd rfl (h.2 _)
  bound hop := by rcases hop with h | h | h <;> cases h
  reduce hop _ hps h :=
    ⟨Simplify.madeOf_reduce s.closed_legible hop (fun p hp => (hps p hp).1) h,
      Simplify.normal_reduce hop.isProper (fun p hp => (hps p hp).2) h⟩

end Scope

namespace Calculator

variable {c : Calculator} {text out : String}

theorem keeps_read_plain (htext : IsPlainText text) :
    Keeps (fun s => s.registry c.store = .fresh c.store) (c.read text) fun e =>
      e.MadeOf ((Registry.fresh c.store).scope c.store).legible.unstored := by
  unfold read
  refine Keeps.bind (Keeps.registry (Q := fun r => r = .fresh c.store) fun s hs => hs)
    fun r hr => ?_
  subst hr
  refine Keeps.bind (Q := fun e =>
    e.MadeOf ((Registry.fresh c.store).scope c.store).legible.unstored)
    (Keeps.ofExcept fun e he => Registry.legible_of_read htext he) fun e he => ?_
  exact Keeps.bind Keeps.note fun _ _ => Keeps.pure he

theorem keeps_calculate_plain (htext : IsPlainText text) :
    Keeps (fun s => s.registry c.store = .fresh c.store) (c.calculate text) fun r =>
      r.MadeOf ((Registry.fresh c.store).scope c.store).legible ∧ r.Normal := by
  refine (keeps_read_plain htext).bind fun e he => ?_
  unfold evaluate
  refine Keeps.bind (Expr.keeps_evaluate (Scope.yields_legible _ _) he).mapError fun r hr => ?_
  exact Keeps.bind Keeps.note fun _ _ => Keeps.pure hr

/-- What is printed for the value of a text is read again and has the same value. -/
theorem read_render_of_calculate {s : Stores} {r : Expr} {limit : ℕ}
    (hfresh : s.registry c.store = .fresh c.store) (htext : IsPlainText text)
    (hr : (c.calculate text s).value = .ok r) (hzero : r.NoZeroReciprocal)
    (hout : r.render = .ok out) (hdeep : r.deeperThan limit = false) :
    ∃ t, ((Registry.fresh c.store).scope c.store).readWithin (limit + 1) out.toList = .ok t ∧
      ∀ I, t.value I = r.value I := by
  obtain ⟨hlegible, hnormal⟩ := (keeps_calculate_plain htext s hfresh).2 r hr
  obtain ⟨t, ht, hvalue⟩ :=
    Expr.exists_readWithin_render Registry.isArithmetic_fresh hlegible hzero hout hdeep
  refine ⟨t, ht, fun I => ?_⟩
  rw [hvalue, Expr.textValue_eq_value I hnormal.signsClear]

/-- A coefficient that is a ratio below zero and a reciprocal. -/
theorem read_render_of_calculate_ratio :
    ∃ r t, ((Calculator.mk 0).calculate "x*(-y)*y^2*3/4-z^(-1)+2-3" .fresh).value = .ok r ∧
      r.render = .ok "-3/4*x*y^3-z^(-1)-1" ∧
      ((Registry.fresh 0).scope 0).read "-3/4*x*y^3-z^(-1)-1" = .ok t ∧
      ∀ I, t.value I = r.value I := by
  have hany : ((Calculator.mk 0).calculate "x*(-y)*y^2*3/4-z^(-1)+2-3" .fresh).value.toOption.any
      (fun r => decide (r.NoZeroReciprocal ∧ r.render = .ok "-3/4*x*y^3-z^(-1)-1" ∧
        r.deeperThan 999 = false)) = true := by
    decide +kernel
  obtain ⟨r, hr, hfacts⟩ := exists_eq_ok hany
  obtain ⟨hzero, hout, hdeep⟩ := of_decide_eq_true hfacts
  have htext : IsPlainText "x*(-y)*y^2*3/4-z^(-1)+2-3" := by decide +kernel
  obtain ⟨t, ht, hvalue⟩ := read_render_of_calculate rfl htext hr hzero hout hdeep
  exact ⟨r, t, hr, hout, ht, hvalue⟩

end Calculator

end Reckoner
