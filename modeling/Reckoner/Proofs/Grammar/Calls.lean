import Reckoner.Proofs.Grammar.Positions
import Reckoner.Proofs.Grammar.Relabel
import Reckoner.Proofs.Grammar.Unfinished

/-!
# Calls for terms

All readers between terms have the reader of terms as a parameter, and so a call of it can be
observed: the reader calls it for the tokens at a place if the error of that call, whichever it is,
is the error of the whole. `Run` is what there is to know about such a reader. It says what is
unfinished where a term is called for and where the reader moves on to another token, and that what
is unfinished when it returns is what surrounded it when it started. It composes along `>>=`, so
each reader of the grammar adds only the places at its own tokens.
-/

namespace Reckoner

open Grammar

/-! ## What is unfinished at the places of the grammar -/

namespace Unfinished

/-- A minus sign at the front of the tokens belongs to a term. -/
def Admits (u : Unfinished) (ts : List Token) : Prop :=
  u.afterOperator = true ∨ Unsigned (ts.map Token.lexeme)

/-- An expression starts inside of the open parentheses. -/
def BeforeExpression (outside : List Nat) (u : Unfinished) : Prop := u = ⟨outside, 0, false⟩

/-- A term starts inside of the open parentheses, with no sign of its own before it. -/
structure BeforeTerm (outside : List Nat) (ts : List Token) (u : Unfinished) : Prop where
  outside_eq : u.outside = outside
  signs_eq : u.signs = 0
  admits : u.Admits ts

/-- A term inside of the open parentheses is over. -/
structure BehindTerm (outside : List Nat) (u : Unfinished) : Prop where
  outside_eq : u.outside = outside
  afterOperator_eq : u.afterOperator = false

variable {u : Unfinished} {outside : List Nat}

theorem BeforeExpression.behindTerm (h : u.BeforeExpression outside) : u.BehindTerm outside := by
  subst h
  exact ⟨rfl, rfl⟩

theorem BeforeExpression.beforeTerm (h : u.BeforeExpression outside) {ts : List Token}
    (hts : Unsigned (ts.map Token.lexeme)) : u.BeforeTerm outside ts := by
  subst h
  exact ⟨rfl, rfl, .inr hts⟩

/-- An operator leaves the reader in front of a term. -/
theorem BehindTerm.next_operator (h : u.BehindTerm outside) {k : LexemeKind} (hk : k.IsOperator)
    (c : Char) (ts : List Token) : (u.next (.mark k c)).BeforeTerm outside ts := by
  obtain ⟨rfl, hoperator⟩ := h
  cases hk with
  | minus => exact ⟨rfl, by simp [next, hoperator], .inl rfl⟩
  | _ => exact ⟨rfl, rfl, .inl rfl⟩

theorem BehindTerm.next_comma (h : u.BehindTerm outside) (c : Char) :
    (u.next (.mark .comma c)).BeforeExpression outside := by
  obtain ⟨rfl, -⟩ := h
  rfl

theorem BehindTerm.next_equals (h : u.BehindTerm outside) (c : Char) :
    (u.next (.mark .equals c)).BeforeExpression outside := by
  obtain ⟨rfl, -⟩ := h
  rfl

end Unfinished

/-! ## Runs -/

/-- The reader, except that its call on `ts'` ends in the error. -/
def Reader.failingAt (part : Reader) (ts' : List Token) (e : SyntaxError) : Reader :=
  fun ts => if ts = ts' then .error e else part ts

/-- The run calls `part` on `ts'`: whatever error that call ends in, the run ends in it as well. -/
def Calls {β : Type} (run : Reader → Except SyntaxError β) (part : Reader) (ts' : List Token) :
    Prop :=
  ∀ e, run (part.failingAt ts' e) = .error e

/-- What holds where a run calls for a term, and where it moves on to the next token. -/
structure Places where
  /-- What is unfinished before the tokens that a term is read from. -/
  call : Unfinished → List Token → Prop
  /-- What is unfinished behind the token that has been taken. -/
  move : Unfinished → Prop

/-- The error is found in the tokens that there are, and it is not a stray character. -/
structure SyntaxError.IsOwn (e : SyntaxError) : Prop where
  ne_tooDeep : e ≠ .tooDeep
  ne_unidentified : ∀ c p, e ≠ .unidentified c p

section Runs

variable {α β : Type} {m n : Nat} {P P' : Places} {D D' : Unfinished → Prop} {part : Reader}
  {u : Unfinished} {ts : List Token}

/-- Why a run that starts on `ts` ends in an error. -/
inductive Cause (P : Places) (part : Reader) (u : Unfinished) (ts : List Token)
    (run : Reader → Except SyntaxError β) (e : SyntaxError) : Prop where
  /-- It is the error of a call for a term. -/
  | call (before ts' : List Token) (hts : ts = before ++ ts') (hpart : part ts' = .error e)
      (hcalls : Calls run part ts') (hplace : P.call (u.after before) ts')
  /-- The next token is a stray character. -/
  | move (before rest : List Token) (c : Char) (p : Nat)
      (hts : ts = before ++ ⟨.stray c, p⟩ :: rest) (he : e = .unidentified c p)
      (hplace : P.move (u.after before))
  /-- It is an error of another kind. -/
  | own (h : e.IsOwn)

/-- A run that reads tokens from `ts`, where `u` is unfinished, and calls `part` for terms. -/
structure Run (P : Places) (D : Unfinished → Prop) (part : Reader) (u : Unfinished)
    (ts : List Token) (run : Reader → Except SyntaxError (α × Rest n)) : Prop where
  /-- A run that returns has called for terms only on tokens that it has taken. -/
  unaffected : ∀ a r, run part = .ok (a, r) →
    ∀ ts' e, ts'.length ≤ r.1.length → run (part.failingAt ts' e) = .ok (a, r)
  /-- What is unfinished where a run returns. -/
  leaves : ∀ a r, run part = .ok (a, r) → ∃ taken, ts = taken ++ r.1 ∧ D (u.after taken)
  /-- Why a run fails. -/
  cause : ∀ e, run part = .error e → Cause P part u ts run e

/-- The term reader leaves behind what surrounded it. -/
def ReadsTerms (part : Reader) : Prop :=
  ∀ (u : Unfinished) ts e r, u.Admits ts → part ts = .ok (e, r) →
    ∃ taken, ts = taken ++ r.1 ∧ (u.after taken).BehindTerm u.outside

theorem ReadsTerms.failingAt (h : ReadsTerms part) (ts' : List Token) (e : SyntaxError) :
    ReadsTerms (part.failingAt ts' e) := by
  intro u ts a r hadmits hread
  unfold Reader.failingAt at hread
  split at hread
  · cases hread
  · exact h u ts a r hadmits hread

/-- Looking at the next token fails only at a stray character. -/
theorem exists_stray_of_ready {e : SyntaxError} (h : ready ts = .error e) :
    ∃ c p rest, ts = ⟨.stray c, p⟩ :: rest ∧ e = .unidentified c p := by
  unfold ready at h
  split at h
  · next c p rest =>
    cases h
    exact ⟨c, p, rest, rfl, rfl⟩
  · cases h

namespace Run

theorem pure {a : α} {r : Rest n} (h : D u) (hr : r.1 = ts) :
    Run P D part u ts fun _ => .ok (a, r) where
  unaffected a' r' hread _ _ _ := hread
  leaves a' r' hread := by
    cases hread
    exact ⟨[], hr.symm, h⟩
  cause e hread := by cases hread

theorem fail {e : SyntaxError} (h : e.IsOwn) :
    Run P D part u ts fun _ => (.error e : Except SyntaxError (α × Rest n)) where
  unaffected a r hread := by cases hread
  leaves a r hread := by cases hread
  cause e' hread := by
    cases hread
    exact .own h

theorem mono {run : Reader → Except SyntaxError (α × Rest n)} (h : Run P D part u ts run)
    (hcall : ∀ v ts', P.call v ts' → P'.call v ts') (hmove : ∀ v, P.move v → P'.move v) :
    Run P' D part u ts run where
  unaffected := h.unaffected
  leaves := h.leaves
  cause e hread := by
    cases h.cause e hread with
    | call before ts' hts hpart hcalls hplace =>
      exact .call before ts' hts hpart hcalls (hcall _ _ hplace)
    | move before rest c p hts he hplace => exact .move before rest c p hts he (hmove _ hplace)
    | own h => exact .own h

/-- The call for a term itself. -/
theorem term (h : ReadsTerms part) (hadmits : u.Admits ts) (hplace : P.call u ts) :
    Run P (Unfinished.BehindTerm u.outside) part u ts fun p => p ts where
  unaffected a r hread ts' e hle := by
    have hne : ts ≠ ts' := by
      rintro rfl
      have hlt := r.2
      omega
    exact (if_neg hne).trans hread
  leaves a r hread := h u ts a r hadmits hread
  cause e hread := .call [] ts rfl hread (fun _ => if_pos rfl) hplace

/-- One run after the other. -/
theorem bind {x : Reader → Except SyntaxError (α × Rest m)}
    {f : Reader → α × Rest m → Except SyntaxError (β × Rest n)} (hx : Run P D part u ts x)
    (hf : ∀ a r v, D v → Run P D' part v r.1 fun p => f p (a, r)) :
    Run P D' part u ts fun p => x p >>= f p where
  unaffected b r hread ts' e hle := by
    obtain ⟨⟨a, r'⟩, ha, hb⟩ := except_bind_eq_ok.1 hread
    obtain ⟨taken, -, htaken⟩ := hx.leaves a r' ha
    have hsecond := hf a r' _ htaken
    obtain ⟨taken', hr', -⟩ := hsecond.leaves b r hb
    -- the second part only takes tokens, so it does not come back to those of the first part
    have hle' : r.1.length ≤ r'.1.length := by
      rw [hr', List.length_append]
      omega
    exact except_bind_eq_ok.2 ⟨(a, r'), hx.unaffected a r' ha ts' e (hle.trans hle'),
      hsecond.unaffected b r hb ts' e hle⟩
  leaves b r hread := by
    obtain ⟨⟨a, r'⟩, ha, hb⟩ := except_bind_eq_ok.1 hread
    obtain ⟨taken, hts, htaken⟩ := hx.leaves a r' ha
    obtain ⟨taken', hr', htaken'⟩ := (hf a r' _ htaken).leaves b r hb
    refine ⟨taken ++ taken', ?_, by rwa [Unfinished.after_append]⟩
    rw [hts, hr', List.append_assoc]
  cause e hread := by
    rcases except_bind_eq_error.1 hread with hfail | ⟨⟨a, r'⟩, ha, hb⟩
    · cases hx.cause e hfail with
      | call before ts' hts hpart hcalls hplace =>
        exact .call before ts' hts hpart (fun e' => except_bind_eq_error.2 (.inl (hcalls e')))
          hplace
      | move before rest c p hts he hplace => exact .move before rest c p hts he hplace
      | own h => exact .own h
    · obtain ⟨taken, hts, htaken⟩ := hx.leaves a r' ha
      -- the first part is not affected by a failure behind it, so the call of the second part is
      -- one of both
      cases (hf a r' _ htaken).cause e hb with
      | call before ts' hr' hpart hcalls hplace =>
        refine .call (taken ++ before) ts' ?_ hpart (fun e' => ?_) ?_
        · rw [hts, hr', List.append_assoc]
        · have hle : ts'.length ≤ r'.1.length := by
            rw [hr', List.length_append]
            omega
          exact except_bind_eq_error.2
            (.inr ⟨(a, r'), hx.unaffected a r' ha ts' e' hle, hcalls e'⟩)
        · rwa [Unfinished.after_append]
      | move before rest c p hr' he hplace =>
        refine .move (taken ++ before) rest c p ?_ he ?_
        · rw [hts, hr', List.append_assoc]
        · rwa [Unfinished.after_append]
      | own h => exact .own h

/-- What does not read tokens fails with an error of its own. -/
theorem bind_except {x : Except SyntaxError α}
    {f : Reader → α → Except SyntaxError (β × Rest n)} (hx : ∀ e, x = .error e → e.IsOwn)
    (hf : ∀ a, x = .ok a → Run P D part u ts fun p => f p a) :
    Run P D part u ts fun p => x >>= f p := by
  cases h : x with
  | error e => exact fail (hx e h)
  | ok a => exact hf a h

/-- The run moves on to its first token. -/
theorem ready {run : Reader → Except SyntaxError (α × Rest n)} (hplace : P.move u)
    (h : Run P D part u ts run) :
    Run P D part u ts fun p => Reckoner.ready ts >>= fun _ => run p := by
  cases hready : Reckoner.ready ts with
  | ok a => exact h
  | error e =>
    obtain ⟨c, p, rest, rfl, rfl⟩ := exists_stray_of_ready hready
    exact {
      unaffected := fun a r hread => by cases hread
      leaves := fun a r hread => by cases hread
      cause := fun e' hread => by
        cases hread
        exact .move [] rest c p rfl rfl hplace }

/-- The run takes the first token. -/
theorem take {t : Token} {run : Reader → Except SyntaxError (α × Rest n)}
    (h : Run P D part (u.next t.lexeme) ts run) : Run P D part u (t :: ts) run where
  unaffected := h.unaffected
  leaves a r hread := by
    obtain ⟨taken, hts, htaken⟩ := h.leaves a r hread
    exact ⟨t :: taken, congrArg (t :: ·) hts, htaken⟩
  cause e hread := by
    cases h.cause e hread with
    | call before ts' hts hpart hcalls hplace =>
      exact .call (t :: before) ts' (congrArg (t :: ·) hts) hpart hcalls hplace
    | move before rest c p hts he hplace =>
      exact .move (t :: before) rest c p (congrArg (t :: ·) hts) he hplace
    | own h => exact .own h

/-- What is read is made into something else. -/
theorem map {x : Reader → Except SyntaxError (α × Rest m)} (hx : Run P D part u ts x)
    (f : α × Rest m → β × Rest n) (hf : ∀ a r, (f (a, r)).2.1 = r.1) :
    Run P D part u ts fun p => x p >>= fun q => .ok (f q) :=
  hx.bind fun a r _ h => pure h (hf a r)

/-- Moving past a token is one more place, and the run goes on from there. -/
theorem afterToken {item : Reader → ReaderOf α} {t : Token} {rest : List Token}
    (hplace : P.move (u.next t.lexeme))
    (h : Run P D part (u.next t.lexeme) rest fun p => item p rest) :
    Run P D part u (t :: rest) fun p => afterToken (item p) t rest :=
  .take (.ready hplace (h.map (fun q => (q.1, q.2.weaken (Nat.le_succ _))) fun _ _ => rfl))

end Run

end Runs

/-! ## Readers -/

section Readers

variable {α β : Type} {part : Reader}

/-- A kind of places, inside of open parentheses and before the tokens that are left. -/
abbrev PlaceKind := List Nat → List Token → Unfinished → Prop

/-- Inside of the open parentheses, terms are called for where they can start. -/
def within (outside : List Nat) : Places where
  call u ts := u.BeforeTerm outside ts
  move u := u.outside = outside

/-- From places of the kind, the reader reads on inside of the parentheses that are open there, up
to the end of a term. -/
def ReadsFrom (part : Reader) (place : PlaceKind) (whole : Reader → ReaderOf α) : Prop :=
  ∀ outside u ts, place outside ts u →
    Run (within outside) (Unfinished.BehindTerm outside) part u ts fun p => whole p ts

/-- Behind a term and the separator is a place of the kind. -/
def LeadsTo (place : PlaceKind) (l : Lexeme) : Prop :=
  ∀ outside u rest, Unfinished.BehindTerm outside u →
    place outside rest (u.next l) ∧ (u.next l).outside = outside

/-- Behind each separator is a place that its reader reads from. -/
def SeparatesFrom (part : Reader) (separator : Reader → Token → Option (ReaderOf β)) : Prop :=
  ∀ t, (∀ p, separator p t = none) ∨ ∃ place item,
    (∀ p, separator p t = some (item p)) ∧ ReadsFrom part place item ∧ LeadsTo place t.lexeme

theorem leadsTo_operator {k : LexemeKind} (hk : k.IsOperator) (c : Char) :
    LeadsTo Unfinished.BeforeTerm (.mark k c) := by
  intro outside u rest hu
  have hnext := hu.next_operator hk c rest
  exact ⟨hnext, hnext.outside_eq⟩

theorem leadsTo_comma (c : Char) :
    LeadsTo (fun outside _ => Unfinished.BeforeExpression outside) (.mark .comma c) := by
  intro outside u rest hu
  exact ⟨hu.next_comma c, hu.outside_eq⟩

theorem leadsTo_equals (c : Char) :
    LeadsTo (fun outside _ => Unfinished.BeforeExpression outside) (.mark .equals c) := by
  intro outside u rest hu
  exact ⟨hu.next_equals c, hu.outside_eq⟩

/-- A separator leads to its item, of which there is at most one for each token. -/
theorem separatesFrom_onKind (kind : LexemeKind) {place : PlaceKind}
    {item : Token → Reader → ReaderOf β} (hitem : ∀ t, ReadsFrom part place (item t))
    (hplace : ∀ c, LeadsTo place (.mark kind c)) :
    SeparatesFrom part fun p t => onKind kind (item t p) t := by
  rintro ⟨lexeme, start⟩
  cases lexeme with
  | mark k c =>
    by_cases hk : k = kind
    · subst hk
      exact .inr ⟨place, item _, fun p => if_pos rfl, hitem _, hplace c⟩
    · exact .inl fun p => if_neg hk
  | name cs => exact .inl fun p => rfl
  | numeral ds fs => exact .inl fun p => rfl
  | stray c => exact .inl fun p => rfl

/-- A repetition runs through its rounds, each of which starts where the last one ended. -/
theorem SeparatesFrom.series {separator : Reader → Token → Option (ReaderOf β)}
    (h : SeparatesFrom part separator) {n : Nat} (ts : List Token) (hn : ts.length < n)
    {outside : List Nat} {u : Unfinished} (hu : u.BehindTerm outside) :
    Run (within outside) (Unfinished.BehindTerm outside) part u ts
      fun p => series (separator p) n ts hn := by
  induction hlen : ts.length using Nat.strongRecOn generalizing ts u with
  | ind m ih =>
    cases ts with
    | nil =>
      have hseries : (fun p => Reckoner.series (separator p) n [] hn) =
          fun _ => .ok ([], ⟨[], hn⟩) := by
        funext p
        rw [Reckoner.series]
      rw [hseries]
      exact .pure hu rfl
    | cons t rest =>
      rcases h t with hnone | ⟨place, item, hsome, hitem, hplace⟩
      · have hseries : (fun p => Reckoner.series (separator p) n (t :: rest) hn) =
            fun _ => .ok ([], ⟨t :: rest, hn⟩) := by
          funext p
          rw [Reckoner.series]
          simp only [hnone]
        rw [hseries]
        exact .pure hu rfl
      · -- a round: the separator, its item, and the repetition on fewer tokens
        have hshort : ∀ r : Rest rest.length, r.1.length < n := by
          intro r
          have hlt := r.2
          rw [List.length_cons] at hn
          omega
        have hseries : (fun p => Reckoner.series (separator p) n (t :: rest) hn) =
            fun p => ready rest >>= fun _ => item p rest >>= fun q =>
              Reckoner.series (separator p) n q.2.1 (hshort q.2) >>= fun q' =>
                .ok (q.1 :: q'.1, q'.2) := by
          funext p
          rw [Reckoner.series]
          simp only [hsome]
          rfl
        rw [hseries]
        obtain ⟨hat, hinside⟩ := hplace outside u rest hu
        refine .take (.ready hinside ?_)
        refine (hitem outside _ rest hat).bind fun a r v hv => ?_
        have hlt : r.1.length < m := by
          have hlt := r.2
          rw [List.length_cons] at hlen
          omega
        exact (ih _ hlt r.1 (hshort r) hv rfl).map _ fun _ _ => rfl

/-- An item and a repetition run as one. -/
theorem ReadsFrom.itemAndSeries {place : PlaceKind} {item : Reader → ReaderOf α}
    {separator : Reader → Token → Option (ReaderOf β)} (hitem : ReadsFrom part place item)
    (hsep : SeparatesFrom part separator) :
    ReadsFrom part place fun p => itemAndSeries (item p) (separator p) := by
  intro outside u ts hu
  refine (hitem outside u ts hu).bind fun a r v hv => ?_
  exact (hsep.series r.1 r.2 hv).map (fun q => ((a, q.1), q.2)) fun _ _ => rfl

theorem ReadsFrom.map {place : PlaceKind} {whole : Reader → ReaderOf α}
    (h : ReadsFrom part place whole) (f : α → β) :
    ReadsFrom part place fun p ts => do let (a, r) ← whole p ts; return (f a, r) :=
  fun outside u ts hu => (h outside u ts hu).map (fun q => (f q.1, q.2)) fun _ _ => rfl

theorem ReadsTerms.readsFrom (h : ReadsTerms part) :
    ReadsFrom part Unfinished.BeforeTerm fun p => p := by
  intro outside u ts hu
  obtain rfl := hu.outside_eq
  exact .term h hu.admits hu

end Readers

namespace Scope

variable {s : Scope} {part : Reader}

/-! ## Operators between terms -/

section Operators

variable (h : ReadsTerms part)

include h

theorem readsFrom_power : ReadsFrom part Unfinished.BeforeTerm fun p => s.power p :=
  (h.readsFrom.itemAndSeries (separatesFrom_onKind .caret (fun _ => h.readsFrom)
    (leadsTo_operator .caret))).map fun p => s.chain .power p.1 p.2

theorem readsFrom_divisor (position : Nat) :
    ReadsFrom part Unfinished.BeforeTerm fun p => s.divisor p position := by
  intro outside u ts hu
  refine (readsFrom_power (s := s) h outside u ts hu).bind fun e r v hv => ?_
  by_cases hzero : e.isZero = true
  · simp only [hzero, if_true]
    exact .fail ⟨by simp, by simp⟩
  · simp only [hzero]
    exact .pure hv rfl

theorem readsFrom_division : ReadsFrom part Unfinished.BeforeTerm fun p => s.division p :=
  ((readsFrom_power (s := s) h).itemAndSeries
    (separatesFrom_onKind .slash (fun t => readsFrom_divisor (s := s) h t.start)
      (leadsTo_operator .slash))).map fun p => s.quotient p.1 p.2

theorem readsFrom_multiplication (negative : Bool) :
    ReadsFrom part Unfinished.BeforeTerm fun p => s.multiplication p negative :=
  ((readsFrom_division (s := s) h).itemAndSeries
    (separatesFrom_onKind .star (fun _ => readsFrom_division (s := s) h)
      (leadsTo_operator .star))).map fun p =>
        s.join .multiply (if negative then negateFactors (p.1 :: p.2) else p.1 :: p.2)

theorem separatesFrom_signedMultiplication :
    SeparatesFrom part fun p => s.signedMultiplication p := by
  rintro ⟨lexeme, start⟩
  by_cases hplus : ∃ c, lexeme = .mark .plus c
  · obtain ⟨c, rfl⟩ := hplus
    exact .inr ⟨_, _, fun p => rfl, readsFrom_multiplication h false,
      leadsTo_operator .plus c⟩
  by_cases hminus : ∃ c, lexeme = .mark .minus c
  · obtain ⟨c, rfl⟩ := hminus
    exact .inr ⟨_, _, fun p => rfl, readsFrom_multiplication h true,
      leadsTo_operator .minus c⟩
  · refine .inl fun p => signedMultiplication_eq_none fun c => ?_
    exact ⟨fun heq => hplus ⟨c, heq⟩, fun heq => hminus ⟨c, heq⟩⟩

theorem readsFrom_leadingMultiplication :
    ReadsFrom part (fun outside _ => Unfinished.BeforeExpression outside)
      fun p => s.leadingMultiplication p := by
  intro outside u ts hu
  have hbehind := hu.behindTerm
  cases ts with
  | nil => exact readsFrom_multiplication h false outside u [] (hu.beforeTerm (by simp [Unsigned]))
  | cons t rest =>
    rcases separatesFrom_signedMultiplication (s := s) h t with
      hnone | ⟨place, item, hsome, hitem, hplace⟩
    · have hread : (fun p => s.leadingMultiplication p (t :: rest)) =
          fun p => s.multiplication p false (t :: rest) := by
        funext p
        simp only [leadingMultiplication, hnone]
      rw [hread]
      refine readsFrom_multiplication h false outside u _ (hu.beforeTerm fun l hl c => ?_)
      obtain rfl : t.lexeme = l := by simpa using hl
      constructor <;> intro heq <;> simpa [signedMultiplication, heq] using hnone part
    · have hread : (fun p => s.leadingMultiplication p (t :: rest)) =
          fun p => afterToken (item p) t rest := by
        funext p
        simp only [leadingMultiplication, hsome]
      rw [hread]
      obtain ⟨hat, hinside⟩ := hplace outside u rest hbehind
      exact .afterToken hinside (hitem outside _ rest hat)

/-- An expression calls for terms in front of terms only, on its own level. -/
theorem readsFrom_expression :
    ReadsFrom part (fun outside _ => Unfinished.BeforeExpression outside)
      fun p => s.expression p :=
  ((readsFrom_leadingMultiplication (s := s) h).itemAndSeries
    (separatesFrom_signedMultiplication (s := s) h)).map fun p => s.join .add (p.1 :: p.2)

/-- A definition is an expression and perhaps another one behind the equals sign. -/
theorem readsFrom_definition :
    ReadsFrom part (fun outside _ => Unfinished.BeforeExpression outside)
      fun p => s.definition p :=
  ((readsFrom_expression (s := s) h).itemAndSeries
    (separatesFrom_onKind .equals (fun _ => readsFrom_expression (s := s) h)
      leadsTo_equals)).map fun p => s.chain (.define s.store) p.1 p.2

end Operators

end Scope

/-! ## Terms -/

/-- In a term, one more is unfinished where another term is called for, and nothing that surrounds
it is finished. -/
def around (u : Unfinished) : Places where
  call v ts := v.depth = u.depth + 1 ∧ v.Admits ts
  move v := u.depth ≤ v.depth

/-- Inside of its own parentheses a term is an expression like any other. -/
theorem Run.inParentheses {α : Type} {n : Nat} {part : Reader} {u v : Unfinished} {ts : List Token}
    {D : Unfinished → Prop} {run : Reader → Except SyntaxError (α × Rest n)}
    (h : Run (within (u.signs :: u.outside)) D part v ts run) : Run (around u) D part v ts run := by
  refine h.mono (fun w ts' hw => ?_) fun w hw => ?_
  · refine ⟨?_, hw.admits⟩
    simp only [Unfinished.depth, hw.outside_eq, hw.signs_eq, List.length_cons, List.sum_cons]
    omega
  · have houtside : w.outside = u.signs :: u.outside := hw
    show u.depth ≤ w.depth
    simp only [Unfinished.depth, houtside, List.length_cons, List.sum_cons]
    omega

namespace Scope

variable {s : Scope} {part : Reader} {u v : Unfinished}

/-- The closing parenthesis of a term. -/
theorem run_closing {α : Type} {m n : Nat} {missing : Option Token → SyntaxError}
    (hmissing : ∀ t, (missing t).IsOwn) (hv : v.BehindTerm (u.signs :: u.outside)) {r : Rest m}
    {f : Rest m → α × Rest n} (hf : ∀ r, (f r).2.1 = r.1) :
    Run (around u) (Unfinished.BehindTerm u.outside) part v r.1
      fun _ => closing missing r >>= fun r' => .ok (f r') := by
  obtain ⟨ts, hts⟩ := r
  cases ts with
  | nil => exact .fail (hmissing none)
  | cons t rest =>
    by_cases hclosing : ∃ c, t.lexeme = .mark .closing c
    · obtain ⟨lexeme, start⟩ := t
      obtain ⟨c, rfl⟩ := hclosing
      have hnext : v.next (.mark .closing c) = ⟨u.outside, u.signs, false⟩ := by
        simp [Unfinished.next, hv.outside_eq]
      have hread : Run (around u) (Unfinished.BehindTerm u.outside) part
          (v.next (.mark .closing c)) rest fun _ => ready rest >>= fun _ =>
            .ok (f ⟨rest, Nat.lt_trans (Nat.lt_succ_self _) hts⟩) := by
        rw [hnext]
        exact .ready (Nat.le_refl u.depth) (.pure ⟨rfl, rfl⟩ (hf _))
      simp only [closing, bind_assoc, pure_bind]
      exact .take hread
    · have hread : closing missing ⟨t :: rest, hts⟩ = .error (missing (some t)) := by
        simp only [closing]
        split
        · next c hc => exact absurd ⟨c, hc⟩ hclosing
        · rfl
      rw [hread]
      exact .fail (hmissing _)

theorem parameters_closing {t : Token} {c : Char} (ht : t.lexeme = .mark .closing c)
    (item : Reader) (stop : Nat) (rest : List Token) :
    parameters item stop (t :: rest) =
      closing (fun t => .unclosedCall (t.elim stop Token.start))
          ⟨t :: rest, Nat.lt_succ_self _⟩ >>= fun r => .ok ([], r) := by
  simp only [parameters, List.head?_cons, Option.map_some, ht]
  rfl

theorem parameters_items {ts : List Token} (hts : ∀ t ∈ ts.head?, ∀ c, t.lexeme ≠ .mark .closing c)
    (item : Reader) (stop : Nat) :
    parameters item stop ts = itemAndSeries item (onKind .comma item) ts >>= fun q =>
      closing (fun t => .unclosedCall (t.elim stop Token.start)) q.2 >>= fun r =>
        .ok (q.1.1 :: q.1.2, r.weaken (Nat.le_succ _)) := by
  simp only [parameters]
  split
  · next c hhead =>
    obtain ⟨t, ht, htc⟩ := Option.map_eq_some_iff.1 hhead
    exact absurd htc (hts t ht c)
  · rfl

theorem run_unexpected (t : Token) (rest : List Token) :
    Run (around u) (Unfinished.BehindTerm u.outside) part u (t :: rest)
      fun _ => (.error (unexpected t) : Except SyntaxError (Expr × Rest (t :: rest).length)) where
  unaffected a r hread := by cases hread
  leaves a r hread := by cases hread
  cause e hread := by
    cases hread
    obtain ⟨lexeme, start⟩ := t
    unfold unexpected
    split
    · exact .own ⟨by simp, by simp⟩
    · next c hc =>
      cases hc
      exact .move [] rest c start rfl rfl (Nat.le_refl u.depth)
    · exact .own ⟨by simp, by simp⟩

theorem readNumeral_eq_error {position : Nat} {ds : List Char} {fs : Option (List Char)}
    {e : SyntaxError} (h : readNumeral position ds fs = .error e) :
    e = .numeralTooLong (String.ofList (ds.take 20)) position := by
  cases fs with
  | some fs => cases h
  | none =>
    simp only [readNumeral] at h
    split at h
    · cases h
      rfl
    · cases h

section Terms

variable (h : ReadsTerms part)

include h

/-- Inside of parentheses a run is one level further in, and behind them it is back. -/
theorem run_parenthesized (hv : v.BeforeExpression (u.signs :: u.outside)) (position : Nat)
    (ts : List Token) :
    Run (around u) (Unfinished.BehindTerm u.outside) part v ts
      fun p => parenthesized (s.expression p) position ts := by
  have hitem := (readsFrom_expression (s := s) h _ v ts hv).inParentheses
  exact hitem.bind fun e r w hw =>
    run_closing (f := fun r' => (e, r')) (fun _ => ⟨by simp, by simp⟩) hw fun _ => rfl

/-- Inside of a call a run is one level further in, and behind it it is back. -/
theorem run_parameters (hv : v.BeforeExpression (u.signs :: u.outside)) (stop : Nat)
    (ts : List Token) :
    Run (around u) (Unfinished.BehindTerm u.outside) part v ts
      fun p => parameters (s.expression p) stop ts := by
  have hown : ∀ t : Option Token,
      (SyntaxError.unclosedCall (t.elim stop Token.start)).IsOwn := fun _ => ⟨by simp, by simp⟩
  by_cases hclosing : ∃ t ∈ ts.head?, ∃ c, t.lexeme = .mark .closing c
  · obtain ⟨t, ht, c, hc⟩ := hclosing
    obtain ⟨rest, rfl⟩ := List.head?_eq_some_iff.1 ht
    simp only [parameters_closing hc]
    exact run_closing (f := fun r => ([], r)) (r := ⟨t :: rest, Nat.lt_succ_self _⟩) hown
      hv.behindTerm fun _ => rfl
  · have hitems : ∀ t ∈ ts.head?, ∀ c, t.lexeme ≠ .mark .closing c :=
      fun t ht c hc => hclosing ⟨t, ht, c, hc⟩
    simp only [parameters_items hitems]
    have hexpression := readsFrom_expression (s := s) h
    have hseries := hexpression.itemAndSeries
      (separatesFrom_onKind .comma (fun _ => hexpression) leadsTo_comma)
    exact (hseries _ v ts hv).inParentheses.bind fun q r w hw =>
      run_closing (f := fun r' => (q.1 :: q.2, r'.weaken (Nat.le_succ _))) hown hw fun _ => rfl

/-- A name is a run by itself or together with its arguments. -/
theorem run_named (hv : v = ⟨u.outside, u.signs, false⟩) (stop : Nat) (name : String)
    (position : Nat) (ts : List Token) :
    Run (around u) (Unfinished.BehindTerm u.outside) part v ts
      fun p => s.named (s.expression p) stop name position ts := by
  subst hv
  cases hsymbol : s.symbol name position with
  | error e =>
    simp only [named_of_error hsymbol, symbol_eq_error hsymbol]
    exact .fail ⟨by simp, by simp⟩
  | ok e =>
    cases ts with
    | nil =>
      simp only [named, hsymbol]
      exact .pure ⟨rfl, rfl⟩ rfl
    | cons t rest =>
      by_cases hopening : ∃ c, t.lexeme = .mark .opening c
      · obtain ⟨lexeme, start⟩ := t
        obtain ⟨c, rfl⟩ := hopening
        by_cases hcallable : ∃ n op, e = .sym n (.operator op)
        · obtain ⟨n, op, rfl⟩ := hcallable
          simp only [named_call hsymbol]
          refine .take (.ready ?_ ?_)
          · -- the open parenthesis is one more thing that is unfinished
            show u.depth ≤ Unfinished.depth ⟨u.signs :: u.outside, 0, false⟩
            simp only [Unfinished.depth, List.length_cons, List.sum_cons]
            omega
          · have hparameters := run_parameters (s := s) (u := u) h rfl stop rest
            exact hparameters.map (fun q => (Expr.app op q.1, q.2.weaken (Nat.le_succ _)))
              fun _ _ => rfl
        · have hother : ∀ n op, e ≠ .sym n (.operator op) := fun n op he => hcallable ⟨n, op, he⟩
          simp only [named_not_callable hsymbol hother]
          exact .fail ⟨by simp, by simp⟩
      · have hother : ∀ c, t.lexeme ≠ .mark .opening c := fun c hc => hopening ⟨c, hc⟩
        simp only [named_alone hsymbol _ _ hother]
        exact .pure ⟨rfl, rfl⟩ rfl

/-- A term calls for terms behind a minus sign and inside of its own parentheses. -/
theorem run_termWith (stop : Nat) {ts : List Token} (hu : u.Admits ts) :
    Run (around u) (Unfinished.BehindTerm u.outside) part u ts
      fun p => s.termWith stop p ts := by
  cases ts with
  | nil => exact .fail ⟨by simp, by simp⟩
  | cons t rest =>
    obtain ⟨lexeme, start⟩ := t
    cases lexeme with
    | name cs => exact .take (.ready (Nat.le_refl u.depth) (run_named h rfl stop _ start rest))
    | numeral ds fs =>
      refine .take (.ready (Nat.le_refl u.depth) (.bind_except (fun e he => ?_) fun n _ => ?_))
      · rw [readNumeral_eq_error he]
        exact ⟨by simp, by simp⟩
      · exact .pure ⟨rfl, rfl⟩ rfl
    | stray c => exact run_unexpected _ rest
    | mark k c =>
      cases k with
      | minus =>
        -- only behind an operator is the sign read as a part of the term
        have hoperator : u.afterOperator = true := by
          rcases hu with hu | hu
          · exact hu
          · exact absurd rfl (hu (.mark .minus c) (by simp) c).2
        have hnext : u.next (.mark .minus c) = ⟨u.outside, u.signs + 1, true⟩ := by
          simp [Unfinished.next, hoperator]
        have hdepth : (u.next (.mark .minus c)).depth = u.depth + 1 := by
          rw [hnext]
          rfl
        have hadmits : (u.next (.mark .minus c)).Admits rest := .inl (by rw [hnext])
        have hinner : Run (around u) (Unfinished.BehindTerm u.outside) part
            (u.next (.mark .minus c)) rest fun p => p rest := by
          have hrun := Run.term (P := around u) h hadmits ⟨hdepth, hadmits⟩
          rwa [hnext] at hrun ⊢
        refine (Run.afterToken ?_ hinner).map (fun q => (_, q.2)) fun _ _ => rfl
        show u.depth ≤ (u.next (.mark .minus c)).depth
        omega
      | opening =>
        refine .afterToken ?_ (run_parenthesized h rfl start rest)
        show u.depth ≤ Unfinished.depth ⟨u.signs :: u.outside, 0, false⟩
        simp only [Unfinished.depth, List.length_cons, List.sum_cons]
        omega
      | _ => exact run_unexpected _ rest

end Terms

end Scope

end Reckoner
