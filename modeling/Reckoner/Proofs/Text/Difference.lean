import Reckoner.Proofs.Evaluation.Again
import Reckoner.Proofs.Evaluation.Termination
import Reckoner.Proofs.Simplify.Opposite
import Reckoner.Proofs.Text.Exact

/-!
# An expression minus itself

A text in parentheses minus the same text is read to a sum of two parameters: the expression of the
text and its product with minus one. Both are evaluated, and where the product keeps the factors of
the value, the two are opposite terms and the sum is zero.
-/

namespace Reckoner

open Grammar Reckoner.Expr Simplify Calculation

/-! ## Lexemes -/

theorem lexemes_group (cs rest : List Char) : lexemes ('(' :: (cs ++ ')' :: rest)) =
    .mark .opening '(' :: lexemes cs ++ [.mark .closing ')'] ++ lexemes rest := by
  have hopen : LexemeKind.opening.IsMark '(' := by decide
  have hclose : LexemeKind.closing.IsMark ')' := by decide
  rw [hopen.lexemes, lexemes_append (hclose.stands rest), hclose.lexemes]
  simp

theorem lexemes_difference (text : String) :
    lexemes ("(" ++ text ++ ")-(" ++ text ++ ")").toList =
      .mark .opening '(' :: lexemes text.toList ++ [.mark .closing ')'] ++
        .mark .minus '-' ::
          (.mark .opening '(' :: lexemes text.toList ++ [.mark .closing ')']) := by
  have hchars : ("(" ++ text ++ ")-(" ++ text ++ ")").toList =
      '(' :: (text.toList ++ ')' :: '-' :: '(' :: (text.toList ++ ')' :: [])) := by
    simp
  have hminus : LexemeKind.minus.IsMark '-' := by decide
  rw [hchars, lexemes_group, hminus.lexemes, lexemes_group, lexemes_nil, List.append_nil]

/-! ## Reading -/

namespace Scope

variable {s : Scope} {t : Expr} {ls : List Lexeme} {depth : ℕ}

/-- An expression in parentheses, as the reader takes it for a factor. -/
theorem division_group (h : Expression s.actions (termAt s.actions depth) ls t) :
    Division s.actions (termAt s.actions (depth + 1))
      (.mark .opening '(' :: ls ++ [.mark .closing ')']) t := by
  have hterm : termAt s.actions (depth + 1) (.mark .opening '(' :: ls ++ [.mark .closing ')']) t :=
    Term.group '(' ')' h
  have hdivision := Division.intro (A := s.actions) (.intro hterm .nil) .nil
  simp only [List.append_nil] at hdivision
  exact hdivision

/-- The expression minus itself is read to a sum. -/
theorem readWithin_difference {text : String} (hs : s.IsArithmetic) (htext : IsPlainText text)
    (h : s.readWithin depth text.toList = .ok t) :
    s.readWithin (depth + 1) ("(" ++ text ++ ")-(" ++ text ++ ")").toList =
      .ok (.app .add [t, s.join .multiply (negateFactors [t])]) := by
  have hexpression := expression_of_definition htext (definition_of_readWithin h)
  have hdivision := division_group hexpression
  refine readWithin_eq_ok ?_
  rw [lexemes_difference]
  have hfirst := Leading.unsigned (A := s.actions) (.intro hdivision .nil) (by simp [Unsigned])
  have hsecond := Signed.minus (A := s.actions) (.intro '-' (.intro hdivision .nil))
  have hall := Definition.intro (A := s.actions) (.intro hfirst (.cons hsecond .nil)) .nil
  simp only [List.append_nil] at hall
  rw [← hs.apply_eq Operator.isArithmetic_add]
  exact hall

end Scope

/-! ## Values -/

/-- Exact numbers, names, variables of one registry and arithmetic. -/
def Material.plainIn (id : StoreId) : Material where
  number n := n.toRat?.isSome = true
  symbol _ role := ∀ id', role = .stored id' → id' = id
  operator := Operator.IsArithmetic

/-- What is evaluated with exact values of the variables changes no variable and has such a
value. -/
theorem Material.yields_plainIn {id : StoreId} {s : Stores}
    (hb : (s.registry id).Binds fun e => e.IsExact ∧ e.Evaluated) :
    (Material.plainIn id).Yields (· = s) fun e => e.IsExact ∧ e.Evaluated where
  number h := ⟨madeOf_num.2 h, yields_evaluated.number trivial⟩
  symbol _ hrole := ⟨madeOf_sym.2 trivial, yields_evaluated.symbol hrole hrole⟩
  stored h hs := by
    obtain rfl := hs
    obtain rfl := h _ rfl
    have hfree : ∀ id', Role.free ≠ .stored id' := fun _ h => by cases h
    exact hb.lookup ⟨madeOf_sym.2 trivial, yields_evaluated.symbol hfree hfree⟩
  bound hop := by rcases hop with h | h | h <;> cases h
  reduce hop hproper hps h := by
    refine ⟨?_, yields_evaluated.reduce hop hproper (fun p hp => (hps p hp).2) h⟩
    exact madeOf_reduce Material.closed_exact trivial (fun p hp => (hps p hp).1) h

namespace Registry

variable {id : StoreId} {r : Registry}

theorem gives_plainIn (hr : r.operators = (fresh id).operators) :
    (r.scope id).Gives (fun t => t.lexeme.IsPlain) (Material.plainIn id) where
  numeral {position ds fs n} hF h := by
    obtain rfl : fs = none := hF
    exact isSome_toRat?_of_readNumeral h
  negated _ h := isSome_toRat?_of_negateExact? h
  minusOne := rfl
  ratio _ _ := rfl
  arithmetic {op} hop := by
    rw [Scope.current, (isBuiltIn_scope hr).arithmetic op hop]
    exact hop
  definition hF := absurd rfl hF
  symbol {cs position e} hF h := by
    rcases Scope.symbol_eq_ok h with ⟨-, op, -, rfl⟩ | ⟨-, rfl⟩
    · exact madeOf_sym.2 fun _ h => by cases h
    · split
      · refine madeOf_sym.2 ?_
        rintro _ ⟨⟩
        rfl
      · exact madeOf_sym.2 fun _ h => by cases h
  call {cs position name op} hF h := by
    rcases Scope.symbol_eq_ok h with ⟨-, op', hop, heq⟩ | ⟨-, heq⟩
    · cases heq
      exact ((isBuiltIn_scope hr).only hop hF).2
    · split at heq <;> cases heq

theorem plainIn_of_read {depth : ℕ} {text : String} {e : Expr}
    (hr : r.operators = (fresh id).operators) (htext : IsPlainText text)
    (h : (r.scope id).readWithin depth text.toList = .ok e) : e.MadeOf (Material.plainIn id) :=
  Scope.madeOf_readWithin (gives_plainIn hr)
    (fun t ht => htext t.lexeme (List.mem_map_of_mem ht)) h

end Registry

namespace Expr

variable {id : StoreId} {t r : Expr} {s : Stores} {depth : ℕ}

theorem value_evaluateList_pair {p q a b : Expr} (ha : (p.evaluateWithin depth s).value = .ok a)
    (hs : (p.evaluateWithin depth s).stores = s) (hb : (q.evaluateWithin depth s).value = .ok b) :
    (evaluateList depth [p, q] s).value = .ok [a, b] := by
  have hnil : ∀ s', (evaluateList depth [] s').value = .ok [] := fun s' => by
    rw [evaluateList]
    rfl
  have hlast : (evaluateList depth [q] s).value = .ok [b] :=
    value_evaluateList_cons.2 ⟨b, [], hb, hnil _, rfl⟩
  exact value_evaluateList_cons.2 ⟨a, [b], ha, by rw [hs, hlast], rfl⟩

/-- What the reader makes of a minus sign before an expression is evaluated to the opposite of the
value of the expression. -/
theorem exists_evaluate_negated {scope : Scope} (hs : scope.IsArithmetic)
    (ht : t.MadeOf (Material.plainIn id))
    (hb : (s.registry id).Binds fun e => e.IsExact ∧ e.Evaluated)
    (hr : (t.evaluateWithin depth s).value = .ok r) (hkeeps : r.KeepsFactors) :
    ∃ r', ((scope.join .multiply (negateFactors [t])).evaluateWithin (depth + 1) s).value = .ok r' ∧
      (reduce .add [r, r']).value = .ok (.int 0) := by
  obtain ⟨hexact, he⟩ :=
    (keeps_evaluateWithin (Material.yields_plainIn hb) depth t ht s rfl).2 r hr
  have hnum : ∀ {depth s} (n : Number), (Expr.num n).evaluateWithin depth s =
      (pure (.num n) : Calculation Expr) s := fun n => by rw [evaluateWithin]
  by_cases hliteral : ∃ n, t = .num n
  · -- the sign of a literal is read into the literal
    obtain ⟨n, rfl⟩ := hliteral
    rw [hnum] at hr
    obtain rfl : Expr.num n = r := Except.ok.inj hr
    obtain ⟨q, hn⟩ := Option.isSome_iff_exists.1 (madeOf_num.1 hexact)
    obtain ⟨m, hneg, hm, hkind⟩ : ∃ m, n.negateExact? = some m ∧ m.toRat? = some (-q) ∧
        n.sameKind m = true := by
      cases n <;> cases hn <;> exact ⟨_, rfl, by simp, rfl⟩
    have hjoin : scope.join .multiply (negateFactors [.num n]) = .num m := by
      simp [negateFactors, hneg, Scope.join]
    exact ⟨.num m, by rw [hjoin, hnum]; rfl, value_reduce_add_opposite hn hm (.inl hkind)⟩
  · have hjoin : scope.join .multiply (negateFactors [t]) =
        .app .multiply [.num .minusOne, t] := by
      rw [← hs.apply_eq Operator.isArithmetic_multiply]
      cases t with
      | num n => exact absurd ⟨n, rfl⟩ hliteral
      | sym name role => rfl
      | app op ps => rfl
    obtain ⟨r', hproduct, hsum⟩ := exists_reduce_opposite he.normal he.steady hexact hkeeps
    have hargs := value_evaluateList_pair (p := .num .minusOne) (by rw [hnum]; rfl)
      (by rw [hnum]; rfl) hr
    rw [hjoin]
    exact ⟨r', (value_evaluateWithin_app Operator.isArithmetic_multiply).2
      ⟨_, hargs, hproduct⟩, hsum⟩

/-- The sum of an expression and what the reader makes of a minus sign before it. -/
theorem value_evaluate_difference {scope : Scope} (hs : scope.IsArithmetic)
    (ht : t.MadeOf (Material.plainIn id))
    (hb : (s.registry id).Binds fun e => e.IsExact ∧ e.Evaluated)
    (hdeep : t.deeperThan depth = false) (hr : (t.evaluateWithin depth s).value = .ok r)
    (hkeeps : r.KeepsFactors) :
    ((Expr.app .add [t, scope.join .multiply (negateFactors [t])]).evaluateWithin
      (depth + 2) s).value = .ok (.int 0) := by
  obtain ⟨r', hr', hsum⟩ := exists_evaluate_negated hs ht hb hr hkeeps
  have hle : t.evaluateWithin (depth + 1) = t.evaluateWithin depth :=
    evaluateWithin_of_le t hdeep (Nat.le_succ depth)
  have hstores := (keeps_evaluateWithin (Material.yields_plainIn hb) depth t ht s rfl).1
  have hargs : (evaluateList (depth + 1) [t, scope.join .multiply (negateFactors [t])] s).value =
      .ok [r, r'] := value_evaluateList_pair (by rw [hle, hr]) (by rw [hle, hstores]) hr'
  exact (value_evaluateWithin_app Operator.isArithmetic_add).2 ⟨_, hargs, hsum⟩

end Expr

/-! ## Calculating -/

namespace Calculator

variable {c : Calculator} {text : String} {s : Stores} {t r : Expr}

/-- A text without doubles and definitions, in parentheses, minus itself: where the product of its
value and minus one keeps the factors of the value, the difference is calculated to the integer
zero. The variables may have any values that were calculated without doubles, and the difference is
nested two levels deeper than the text. -/
theorem calculate_difference
    (hoperators : (s.registry c.store).operators = (Registry.fresh c.store).operators)
    (hb : (s.registry c.store).Binds fun e => e.IsExact ∧ e.Evaluated)
    (htext : IsPlainText text)
    (hread : ((s.registry c.store).scope c.store).readWithin (maxDepth - 1) text.toList = .ok t)
    (hdeep : t.deeperThan (maxDepth - 2) = false)
    (hr : (c.calculate text s).value = .ok r) (hkeeps : r.KeepsFactors) :
    (c.calculate ("(" ++ text ++ ")-(" ++ text ++ ")") s).value = .ok (.int 0) := by
  have hs := (Registry.isBuiltIn_scope hoperators).arithmetic
  have ht := Registry.plainIn_of_read hoperators htext hread
  -- the depth that is left inside of the difference is enough for the text
  have hvalue : (t.evaluateWithin (maxDepth - 2) s).value = .ok r := by
    have hread' : ((s.registry c.store).scope c.store).read text = .ok t :=
      Scope.readWithin_of_le (Nat.sub_le _ _) hread
    rw [calculate_of_ok hread', value_evaluate] at hr
    rw [← evaluateWithin_of_le t hdeep (Nat.sub_le _ _)]
    cases hv : (t.evaluate s).value with
    | error e =>
      rw [hv] at hr
      cases hr
    | ok v =>
      rw [hv] at hr
      exact hv.trans hr
  have hdifference := Scope.readWithin_difference hs htext hread
  have hzero : ((Expr.app .add [t, ((s.registry c.store).scope c.store).join .multiply
      (negateFactors [t])]).evaluate s).value = .ok (.int 0) :=
    value_evaluate_difference hs ht hb hdeep hvalue hkeeps
  rw [calculate_of_ok hdifference, value_evaluate, hzero]
  rfl

/-- A product whose coefficient is a ratio below zero. -/
theorem calculate_difference_product :
    ((Calculator.mk 0).calculate "(-3*x*(y+1)^2/4)-(-3*x*(y+1)^2/4)" .fresh).value =
      .ok (.int 0) := by
  have hany : (((Registry.fresh 0).scope 0).readWithin (maxDepth - 1)
      "-3*x*(y+1)^2/4".toList).toOption.any (fun t =>
        decide (t.deeperThan (maxDepth - 2) = false)) = true := by
    decide +kernel
  have hany' : ((Calculator.mk 0).calculate "-3*x*(y+1)^2/4" .fresh).value.toOption.any (fun r =>
      decide r.KeepsFactors) = true := by
    decide +kernel
  obtain ⟨t, hread, hdeep⟩ := exists_eq_ok hany
  obtain ⟨r, hr, hkeeps⟩ := exists_eq_ok hany'
  have htext : IsPlainText "-3*x*(y+1)^2/4" := by decide +kernel
  have hdifference : "(-3*x*(y+1)^2/4)-(-3*x*(y+1)^2/4)" =
      "(" ++ "-3*x*(y+1)^2/4" ++ ")-(" ++ "-3*x*(y+1)^2/4" ++ ")" := by
    decide +kernel
  rw [hdifference]
  exact calculate_difference rfl (Registry.binds_fresh 0) htext hread (of_decide_eq_true hdeep) hr
    (of_decide_eq_true hkeeps)

/-- The text has a value that does not keep its factors, and the difference of the text and itself
is not the integer zero. -/
def DifferenceRemains (text : String) : Prop :=
  IsPlainText text ∧ ∃ r d, ((Calculator.mk 0).calculate text .fresh).value = .ok r ∧
    ¬ r.KeepsFactors ∧
    ((Calculator.mk 0).calculate ("(" ++ text ++ ")-(" ++ text ++ ")") .fresh).value = .ok d ∧
    d.same (.int 0) = false

theorem differenceRemains_of_any {text : String} (hplain : IsPlainText text)
    (hr : (((Calculator.mk 0).calculate text .fresh).value.toOption.any fun r =>
      decide (¬ r.KeepsFactors)) = true)
    (hd : (((Calculator.mk 0).calculate ("(" ++ text ++ ")-(" ++ text ++ ")")
      .fresh).value.toOption.any fun d => decide (d.same (.int 0) = false)) = true) :
    DifferenceRemains text := by
  obtain ⟨r, hr, hkeeps⟩ := exists_eq_ok hr
  obtain ⟨d, hd, hnonzero⟩ := exists_eq_ok hd
  exact ⟨hplain, r, d, hr, of_decide_eq_true hkeeps, hd, of_decide_eq_true hnonzero⟩

/-- A sum that is left on its own, a power of the new coefficient, and a power of the new
coefficient and a factor after it. -/
theorem calculate_difference_remains : DifferenceRemains "-(x+y)" ∧ DifferenceRemains "(-1)^x" ∧
    DifferenceRemains "3*x*(-3*x)^z" := by
  refine ⟨?_, ?_, ?_⟩ <;>
    exact differenceRemains_of_any (by decide +kernel) (by decide +kernel) (by decide +kernel)

end Calculator

end Reckoner
