import Mathlib.Data.List.Basic
import Reckoner.Proofs.Grammar.Calls
import Reckoner.Proofs.Grammar.Language
import Reckoner.Proofs.Grammar.Progress

/-!
# Nesting

The reader calls itself only for terms, and the calls that are active surround each other. Each of
them but the last one waits at a parenthesis or a call that is still open, or at a minus sign whose
term is not over, so there are never more of them than what surrounds the place that is read, and
the last one. The length of a text has no part in this: where its nesting is below the limit, the
limit is never met.
-/

namespace Reckoner

open Grammar

namespace Scope

/-! ## Active calls -/

/-- While `whole` reads `ts`, so many calls for terms are active, one in the other; the last one
reads from `ts'`. Terms are read at most `depth` deep. -/
inductive Active (s : Scope) (stop : Nat) :
    (Reader → Reader) → Nat → List Token → Nat → List Token → Prop where
  | last {whole depth ts ts'} (h : Calls (fun p => whole p ts) (s.term stop depth) ts') :
      Active s stop whole depth ts 1 ts'
  | around {whole depth ts ts₁ n ts'}
      (h : Calls (fun p => whole p ts) (s.term stop (depth + 1)) ts₁)
      (more : Active s stop (s.termWith stop) depth ts₁ n ts') :
      Active s stop whole (depth + 1) ts (n + 1) ts'

/-- Reads a text from its first token on. -/
def wholeText (s : Scope) (term : Reader) : Reader := fun ts => do
  ready ts
  s.definition term ts

end Scope

/-- The reader moves on behind the tokens before it returns: if a stray character stands there, it
complains about that. -/
def Passes (item : Reader) (taken : List Token) : Prop :=
  ∀ c p, item (taken ++ [⟨.stray c, p⟩]) = .error (.unidentified c p)

namespace Scope

variable {s : Scope} {text : List Char} {stop depth n : Nat} {whole : Reader → Reader}
  {ts ts' : List Token} {u : Unfinished} {P : Places} {D : Unfinished → Prop}

theorem readsTerms_term (s : Scope) (stop depth : Nat) : ReadsTerms (s.term stop depth) := by
  induction depth with
  | zero =>
    intro u ts e r _ hread
    cases hread
  | succ depth ih =>
    intro u ts e r hadmits hread
    exact (run_termWith ih stop hadmits).leaves e r hread

/-- An error of the last active call is the error of the whole. -/
theorem Active.error (h : s.Active stop whole depth ts n ts') {e : SyntaxError}
    (he : s.term stop (depth + 1 - n) ts' = .error e) :
    whole (s.term stop depth) ts = .error e := by
  have hcalled : ∀ {whole : Reader → Reader} {part : Reader} {ts ts' : List Token},
      Calls (fun p => whole p ts) part ts' → part ts' = .error e → whole part ts = .error e := by
    intro whole part ts ts' hcalls hpart
    have hsame : part.failingAt ts' e = part := by
      funext ts
      unfold Reader.failingAt
      split
      · next heq => rw [heq, hpart]
      · rfl
    have herror := hcalls e
    rwa [hsame] at herror
  induction h with
  | last h => exact hcalled h he
  | @around whole depth ts ts₁ n ts' h _ ih =>
    rw [Nat.add_sub_add_right] at he
    exact hcalled h (ih he)

/-- Where the limit is met, there is one more active call than it allows. -/
theorem exists_active_of_tooDeep
    (hrun : ∀ part, ReadsTerms part → Run P D part u ts fun p => whole p ts)
    (hcall : ∀ v ts', P.call v ts' → v.Admits ts')
    (hread : whole (s.term stop depth) ts = .error .tooDeep) :
    ∃ ts', s.Active stop whole depth ts (depth + 1) ts' := by
  induction depth generalizing whole ts u P D with
  | zero =>
    cases (hrun _ (readsTerms_term s stop 0)).cause _ hread with
    | call before ts' hts hpart hcalls hplace => exact ⟨ts', .last hcalls⟩
    | move before rest c p hts he hplace => cases he
    | own h => exact absurd rfl h.ne_tooDeep
  | succ depth ih =>
    cases (hrun _ (readsTerms_term s stop (depth + 1))).cause _ hread with
    | call before ts₁ hts hpart hcalls hplace =>
      have hadmits := hcall _ _ hplace
      obtain ⟨ts', hactive⟩ := ih (fun part h => run_termWith h stop hadmits)
        (fun v ts' hv => hv.2) hpart
      exact ⟨ts', .around hcalls hactive⟩
    | move before rest c p hts he hplace => cases he
    | own h => exact absurd rfl h.ne_tooDeep

/-! ## What is unfinished while calls are active -/

/-- A call for a term has its place. A stray character at the end of the text would be an error that
comes from nowhere else. -/
theorem exists_before_of_calls (hts : ts <:+ tokens text)
    (hrun : ∀ part, ReadsTerms part → Run P D part u ts fun p => whole p ts)
    (h : Calls (fun p => whole p ts) (s.term text.length depth) ts') :
    ∃ before, ts = before ++ ts' ∧ P.call (u.after before) ts' := by
  have hterm := (readsTerms_term s text.length depth).failingAt ts' (.unidentified ' ' text.length)
  cases (hrun _ hterm).cause _ (h (.unidentified ' ' text.length)) with
  | call before ts'' hsplit hpart hcalls hplace =>
    by_cases heq : ts'' = ts'
    · subst heq
      exact ⟨before, hsplit, hplace⟩
    · have hfail : s.term text.length depth ts'' = .error (.unidentified ' ' text.length) :=
        (if_neg heq).symm.trans hpart
      have hsuffix : ts'' <:+ tokens text := (hsplit ▸ List.suffix_append before ts'').trans hts
      have hpoints := points_term s text depth ts'' _ hsuffix hfail
      obtain ⟨hlt, -⟩ := List.getElem?_eq_some_iff.1 hpoints
      exact absurd hlt (Nat.lt_irrefl _)
  | move before rest c p hsplit he hplace =>
    cases he
    have hmem : (⟨.stray ' ', text.length⟩ : Token) ∈ tokens text :=
      hts.subset (hsplit ▸ by simp)
    obtain ⟨-, hlt⟩ := start_of_mem_tokensFrom 0 text _ hmem
    rw [Nat.zero_add] at hlt
    exact absurd hlt (Nat.lt_irrefl _)
  | own h => exact absurd rfl (h.ne_unidentified _ _)

/-- Each active call has one more unfinished than the call around it. -/
theorem Active.exists_before {d : Nat} (h : s.Active text.length whole depth ts n ts')
    (hts : ts <:+ tokens text)
    (hrun : ∀ part, ReadsTerms part → Run P D part u ts fun p => whole p ts)
    (hcall : ∀ v ts', P.call v ts' → v.depth = d ∧ v.Admits ts') :
    ∃ before, ts = before ++ ts' ∧ (u.after before).depth + 1 = d + n ∧
      (u.after before).Admits ts' := by
  induction h generalizing u P D d with
  | last h =>
    obtain ⟨before, hsplit, hplace⟩ := exists_before_of_calls hts hrun h
    obtain ⟨hdepth, hadmits⟩ := hcall _ _ hplace
    exact ⟨before, hsplit, by omega, hadmits⟩
  | @around whole depth ts ts₁ n ts' h _ ih =>
    obtain ⟨before, hsplit, hplace⟩ := exists_before_of_calls hts hrun h
    obtain ⟨hdepth, hadmits⟩ := hcall _ _ hplace
    have hsuffix : ts₁ <:+ tokens text := (hsplit ▸ List.suffix_append before ts₁).trans hts
    obtain ⟨before', hsplit', hdepth', hadmits'⟩ := ih (d := d + 1) hsuffix
      (fun part h => run_termWith h text.length hadmits)
      fun v ts' hv => ⟨by rw [hv.1, hdepth], hv.2⟩
    refine ⟨before ++ before', ?_, ?_, ?_⟩
    · rw [hsplit, hsplit', List.append_assoc]
    · rw [Unfinished.after_append]
      omega
    · rwa [Unfinished.after_append]

/-- While a term is read, nothing that surrounds it is finished. -/
theorem exists_before_of_unidentified (hadmits : u.Admits ts) {c : Char} {p : Nat}
    (hread : s.term stop depth ts = .error (.unidentified c p)) :
    ∃ before rest, ts = before ++ ⟨.stray c, p⟩ :: rest ∧ u.depth ≤ (u.after before).depth := by
  induction depth generalizing u ts with
  | zero => cases hread
  | succ depth ih =>
    have hterm := readsTerms_term s stop depth
    cases (run_termWith hterm stop hadmits).cause _ hread with
    | call before ts' hsplit hpart hcalls hplace =>
      obtain ⟨hdepth, hadmits'⟩ := hplace
      obtain ⟨before', rest, hsplit', hle⟩ := ih hadmits' hpart
      refine ⟨before ++ before', rest, ?_, ?_⟩
      · rw [hsplit, hsplit', List.append_assoc]
      · rw [Unfinished.after_append]
        omega
    | move before rest c' p' hsplit he hplace =>
      cases he
      exact ⟨before, rest, hsplit, hplace⟩
    | own h => exact absurd rfl (h.ne_unidentified _ _)

theorem depth_le_of_passes {taken rest : List Token} (hts : taken ++ rest <:+ tokens text)
    (hadmits : u.Admits (taken ++ rest)) (h : Passes (s.term stop depth) taken) :
    u.depth ≤ (u.after taken).depth := by
  cases taken with
  | nil => exact Nat.le_refl _
  | cons t taken =>
    have hfresh : (⟨.stray ' ', text.length⟩ : Token) ∉ t :: taken := by
      intro hmem
      have hmem' := hts.subset (List.mem_append_left rest hmem)
      obtain ⟨-, hlt⟩ := start_of_mem_tokensFrom 0 text _ hmem'
      rw [Nat.zero_add] at hlt
      exact Nat.lt_irrefl _ hlt
    have hadmits' : u.Admits (t :: taken ++ [⟨.stray ' ', text.length⟩]) := hadmits
    obtain ⟨before, rest', hsplit, hle⟩ :=
      exists_before_of_unidentified hadmits' (h ' ' text.length)
    obtain ⟨rfl, -, -⟩ := (List.append_cons_inj_of_notMem hfresh List.not_mem_nil).1 hsplit
    exact hle

/-! ## Whole texts -/

theorem run_wholeText {part : Reader} (h : ReadsTerms part) (ts : List Token) :
    Run (within []) (Unfinished.BehindTerm []) part .start ts fun p => s.wholeText p ts :=
  .ready rfl (readsFrom_definition h [] .start ts rfl)

theorem call_within_nil {v : Unfinished} (h : (within []).call v ts) :
    v.depth = 0 ∧ v.Admits ts := by
  obtain ⟨houtside, hsigns, hadmits⟩ := h
  refine ⟨?_, hadmits⟩
  rw [Unfinished.depth, houtside, hsigns]
  rfl

theorem readWithin_eq_tooDeep_iff :
    s.readWithin depth text = .error .tooDeep ↔
      s.wholeText (s.term text.length depth) (tokens text) = .error .tooDeep := by
  unfold readWithin wholeText
  simp only [← bind_assoc]
  rw [except_bind_eq_error]
  refine or_iff_left ?_
  rintro ⟨⟨e, r, hr⟩, -, hrest⟩
  cases r with
  | nil => cases hrest
  | cons t rest =>
    unfold unexpected at hrest
    simp only at hrest
    split at hrest <;> cases hrest

/-- The limit is met exactly where there is one more active call than it allows. -/
theorem readWithin_eq_tooDeep_iff_active :
    s.readWithin depth text = .error .tooDeep ↔
      ∃ ts, s.Active text.length s.wholeText depth (tokens text) (depth + 1) ts := by
  rw [readWithin_eq_tooDeep_iff]
  constructor
  · intro h
    exact exists_active_of_tooDeep (fun part hpart => run_wholeText hpart _)
      (fun v ts hv => (call_within_nil hv).2) h
  · rintro ⟨ts, hactive⟩
    refine hactive.error ?_
    rw [Nat.sub_self]
    rfl

/-- As many calls are active as parentheses, calls and minus signs are unfinished, and the last
one. -/
theorem Active.before (h : s.Active text.length s.wholeText depth (tokens text) n ts) :
    ∃ before, tokens text = before ++ ts ∧ n = 1 + (Unfinished.start.after before).depth ∧
      ((Unfinished.start.after before).Admits ts) := by
  obtain ⟨before, hsplit, hdepth, hadmits⟩ := h.exists_before (d := 0) (List.suffix_refl _)
    (fun part hpart => run_wholeText hpart _) fun v ts hv => call_within_nil hv
  exact ⟨before, hsplit, by omega, hadmits⟩

theorem Active.le_nesting
    (h : s.Active text.length s.wholeText depth (tokens text) n ts) : n ≤ 1 + nesting text := by
  obtain ⟨before, hsplit, hn, -⟩ := h.before
  have hle := Unfinished.depth_after_le_deepest .start before ts
  rw [← hsplit] at hle
  unfold nesting
  omega

theorem readWithin_ne_tooDeep (hdepth : nesting text < depth) :
    s.readWithin depth text ≠ .error .tooDeep := by
  intro h
  obtain ⟨ts, hactive⟩ := readWithin_eq_tooDeep_iff_active.1 h
  have hle := hactive.le_nesting
  omega

/-- In every text the reader moves on, and it nests only as far as the text does.

Every reader that returns leaves fewer tokens, and its cursor has moved on. Every round of a
repetition, whether the repetition ends or fails, takes its separator and at least one token behind
it.

Whenever a term is called for, as many calls are active as parentheses, calls and minus signs are
unfinished before it, and the call itself. While that call reads on, what it has taken leaves at
least as much unfinished. So there are never more calls than the nesting of the text, and one.

The limit is met exactly if there are more active calls than it allows. So a text whose nesting is
below the limit is never too deep, however long it is, and with any such limit the reader ends
with the same result. Without parentheses, calls and signs of terms, a text is not nested at all. -/
theorem nesting_bounds_active (s : Scope) (text : String) :
    (∀ depth ts left, ts <:+ tokens text.toList → s.Returns text.toList.length depth ts left →
      left <:+ ts ∧ cursor text.toList ts < cursor text.toList left) ∧
    (∀ depth separator, s.Repeats (s.term text.toList.length depth) separator →
      (∀ n ts h es r, series separator n ts h = .ok (es, r) →
        Rounds separator es.length ts r.1) ∧
      (∀ n ts h e, series separator n ts h = .error e →
        ∃ k t rest item, Rounds separator k ts (t :: rest) ∧ separator t = some item ∧
          afterToken item t rest = .error e) ∧
      ∀ k ts left, ts <:+ tokens text.toList → Rounds separator k ts left →
        left <:+ ts ∧ left.length + 2 * k ≤ ts.length ∧
          cursor text.toList ts + 2 * k ≤ cursor text.toList left) ∧
    (∀ depth n ts, s.Active text.toList.length s.wholeText depth (tokens text.toList) n ts →
      n ≤ 1 + nesting text.toList ∧ ∃ before, tokens text.toList = before ++ ts ∧
        n = 1 + (Unfinished.start.after before).depth ∧
        ∀ taken rest, ts = taken ++ rest →
          Passes (s.term text.toList.length (depth + 1 - n)) taken →
          n ≤ 1 + (Unfinished.start.after (before ++ taken)).depth) ∧
    (∀ depth, s.readWithin depth text.toList = .error .tooDeep ↔
      ∃ ts, s.Active text.toList.length s.wholeText depth (tokens text.toList) (depth + 1) ts) ∧
    (∃ x, x ≠ .error .tooDeep ∧
      ∀ depth, nesting text.toList < depth → s.readWithin depth text.toList = x) ∧
    (nesting text.toList < Expr.maxDepth → s.read text ≠ .error .tooDeep) ∧
    (Flat (tokens text.toList) → nesting text.toList = 0) := by
  refine ⟨fun depth ts left hts h => ?_, fun depth separator h => ⟨?_, ?_, ?_⟩,
    fun depth n ts h => ?_, fun depth => readWithin_eq_tooDeep_iff_active, ?_,
    fun hdepth => readWithin_ne_tooDeep hdepth, nesting_of_flat⟩
  · obtain ⟨hleft, hlt⟩ := h.suffix
    have hcursor := cursor_add_le hts hleft
    exact ⟨hleft, by omega⟩
  · intro n ts hn es r hread
    exact rounds_of_series ts hread
  · intro n ts hn e hread
    exact rounds_of_series_error ts hread
  · intro k ts left hts hrounds
    obtain ⟨Q, hQ⟩ := h.derivesAfter (derives_term s text.toList.length depth)
    obtain ⟨hleft, hlength⟩ := hrounds.suffix hQ
    have hcursor := cursor_add_le hts hleft
    exact ⟨hleft, hlength, by omega⟩
  · obtain ⟨before, hsplit, hn, hadmits⟩ := h.before
    refine ⟨h.le_nesting, before, hsplit, hn, ?_⟩
    -- what the call takes from here on is inside of it, so the depth only grows
    rintro taken rest rfl hpasses
    have hsuffix : taken ++ rest <:+ tokens text.toList := ⟨before, hsplit.symm⟩
    have hle := depth_le_of_passes hsuffix hadmits hpasses
    rw [Unfinished.after_append]
    omega
  · -- the result at the least sufficient limit is the result at any larger one
    have hleast := readWithin_ne_tooDeep (s := s) (Nat.lt_succ_self (nesting text.toList))
    exact ⟨_, hleast, fun depth hdepth => deepens_readWithin s hdepth text.toList hleast⟩

end Scope

end Reckoner
