import Reckoner.Proofs.Console.Quit
import Reckoner.Proofs.Console.Status
import Reckoner.Proofs.Text.Level

/-!
# Comments in a conversation

The line processor has nothing to do for a comment. A conversation, however, counts the parentheses
of a line before it looks at what kind of line it is. So a comment leaves no trace but a prompt as
long as it does not open more parentheses than it closes. Otherwise it waits like any other line,
and the lines after it become a part of the comment, up to the one that closes its parentheses.

Two sessions are compared up to the prompts that were printed: what a line prints ends with a line
feed and is no prompt.
-/

namespace Reckoner

/-- The first character of the line that is not blank is the sign of comments. -/
def isComment (line : String) : Bool := (Text.stripStart line.toList).head? = some '#'

theorem exists_strip_of_isComment {line : String} (h : isComment line = true) :
    ∃ cs, Text.strip line.toList = '#' :: cs := by
  obtain ⟨cs, hcs⟩ := List.head?_eq_some_iff.1 (of_decide_eq_true h)
  have hprefix : Text.strip line.toList <+: '#' :: cs := by
    rw [← hcs]
    exact List.rdropWhile_prefix Text.isBlank _
  cases hstrip : Text.strip line.toList with
  | nil =>
    have hblank : Text.isBlank '#' = true := by
      rw [Text.strip, hcs] at hstrip
      exact List.rdropWhile_eq_nil_iff.1 hstrip '#' (by simp)
    exact absurd hblank (by decide)
  | cons c ds =>
    rw [hstrip] at hprefix
    exact ⟨ds, by rw [(List.cons_prefix_cons.1 hprefix).1]⟩

theorem isComment_append {line : String} (h : isComment line = true) (text : String) :
    isComment (line ++ text) = true := by
  obtain ⟨cs, hcs⟩ := List.head?_eq_some_iff.1 (of_decide_eq_true h)
  refine decide_eq_true ?_
  rw [Text.stripStart] at hcs ⊢
  rw [String.toList_append, List.dropWhile_append, hcs]
  simp

/-- A console has no answer to a comment. -/
theorem Session.processLine_of_isComment {line : String} (h : isComment line = true)
    (s : Session) : s.processLine line = (.ok none, s) := by
  obtain ⟨cs, hcs⟩ := exists_strip_of_isComment h
  refine processLine_of_silent ?_ ?_
  · rw [isCommand, hcs]
    rfl
  · rw [expression?, hcs]
    rfl

/-! ## What is printed beside the prompts -/

/-- The text of a prompt. -/
def Printed.isPrompt : Printed → Bool
  | .out text => text = "symcalc> " || text = "...... "
  | .err _ => false

theorem Printed.isPrompt_line (text : String) : isPrompt (.out (text ++ "\n")) = false := by
  have hne : ∀ p : String, p.toList.getLast? = some ' ' → text ++ "\n" ≠ p := by
    rintro _ hlast rfl
    simp at hlast
  simp [isPrompt, hne "symcalc> " rfl, hne "...... " rfl]

namespace Session

/-- The session as if no prompt had been printed. -/
def withoutPrompts (s : Session) : Session :=
  { s with printed := s.printed.filter (!·.isPrompt) }

theorem withoutPrompts_printLine (s : Session) (text : String) :
    (s.printLine text).withoutPrompts = s.withoutPrompts.printLine text := by
  simp [withoutPrompts, printLine, print, Printed.isPrompt_line]

theorem withoutPrompts_foldl_complain (lines : List String) (s : Session) :
    (lines.foldl complain s).withoutPrompts = lines.foldl complain s.withoutPrompts := by
  induction lines generalizing s with
  | nil => rfl
  | cons line lines ih => exact ih (s.complain line)

theorem run_withoutPrompts {α : Type} (s : Session) (x : Calculation α) :
    s.withoutPrompts.run x = ((s.run x).1, (s.run x).2.withoutPrompts) := by
  obtain ⟨stores, console, verbose, printed⟩ := s
  cases verbose with
  | false => rfl
  | true =>
    exact Prod.ext rfl (withoutPrompts_foldl_complain (x stores).trace.lines
      ⟨(x stores).stores, console, true, printed⟩).symm

/-- What was printed before plays no part in the answer to a line. -/
theorem processLine_withoutPrompts (s : Session) (line : String) :
    s.withoutPrompts.processLine line =
      ((s.processLine line).1, (s.processLine line).2.withoutPrompts) := by
  unfold processLine runConsole
  rw [show s.withoutPrompts.console = s.console from rfl, run_withoutPrompts]
  obtain ⟨e | ⟨answer, c⟩, s'⟩ := s.run (s.console.processLine line)
  · rfl
  · rfl

/-- The two runs end in the same way, with the same registries and settings, and have printed the
same beside the prompts. -/
def Agrees (p q : Ending × Session) : Prop :=
  p.1 = q.1 ∧ p.2.withoutPrompts = q.2.withoutPrompts

theorem Agrees.trans {p q r : Ending × Session} (h : Agrees p q) (h' : Agrees q r) :
    Agrees p r := ⟨h.1.trans h'.1, h.2.trans h'.2⟩

namespace Conversation

variable {v w : Conversation}

/-- The conversation as if no prompt had been printed. -/
def withoutPrompts (v : Conversation) : Conversation :=
  { v with session := v.session.withoutPrompts }

theorem withoutPrompts_prompt (v : Conversation) : v.prompt.withoutPrompts = v.withoutPrompts := by
  unfold prompt
  by_cases hpending : v.pending = ""
  · rw [if_pos hpending]
    rfl
  · rw [if_neg hpending]
    rfl

/-- Entering a line does the same whatever prompts were printed. -/
theorem enter_withoutPrompts (v : Conversation) (line : String) :
    v.withoutPrompts.enter line = ((v.enter line).1, (v.enter line).2.withoutPrompts) := by
  unfold enter
  rw [show v.withoutPrompts.pending = v.pending from rfl]
  generalize (if v.pending = "" then line else v.pending ++ " " ++ line) = text
  by_cases hopen : 0 < openParentheses text
  · simp only [if_pos hopen]
    rfl
  · simp only [if_neg hopen, withoutPrompts, processLine_withoutPrompts]
    generalize v.session.processLine text = r
    obtain ⟨e | answer, s⟩ := r
    · rfl
    · by_cases hshown : shown answer = ""
      · simp only [if_pos hshown]
        rfl
      · simp only [if_neg hshown, ← withoutPrompts_printLine]
        rfl

/-- A key does the same whatever prompts were printed. -/
theorem react_withoutPrompts (v : Conversation) (k : Keyboard) :
    v.withoutPrompts.react k = ((v.react k).1, (v.react k).2.withoutPrompts) := by
  cases k with
  | line line => exact v.enter_withoutPrompts line
  | interrupt =>
    by_cases hpending : v.pending = ""
    · simp [react, withoutPrompts, hpending, withoutPrompts_printLine]
    · simp [react, withoutPrompts, hpending, withoutPrompts_printLine]
  | eof => simp only [react, withoutPrompts, withoutPrompts_printLine]

/-- A key has the same effect whatever prompts were printed before. -/
theorem react_congr (h : v.withoutPrompts = w.withoutPrompts) (k : Keyboard) :
    ((v.prompt.react k).1, (v.prompt.react k).2.withoutPrompts) =
      ((w.prompt.react k).1, (w.prompt.react k).2.withoutPrompts) := by
  rw [← react_withoutPrompts, ← react_withoutPrompts, withoutPrompts_prompt,
    withoutPrompts_prompt, h]

/-- Conversations that differ in prompts only end in the same way and print the same beside them. -/
theorem agrees_resume (keys : List Keyboard) (h : v.withoutPrompts = w.withoutPrompts) :
    Agrees (v.resume keys) (w.resume keys) := by
  induction keys generalizing v w with
  | nil => exact ⟨rfl, congrArg session (Prod.mk.inj (react_congr h .eof)).2⟩
  | cons k ks ih =>
    have hk := react_congr h k
    rw [resume, resume]
    generalize v.prompt.react k = r at hk ⊢
    generalize w.prompt.react k = r' at hk ⊢
    obtain ⟨ending, v'⟩ := r
    obtain ⟨ending', w'⟩ := r'
    obtain ⟨rfl, hsame⟩ := Prod.mk.inj hk
    cases ending with
    | none => exact ih hsame
    | some ending => exact ⟨rfl, congrArg session hsame⟩

/-! ## A comment -/

/-- The lines that are left when `n` parentheses are still open, after those that wait until no
parenthesis is. -/
def afterClosed (n : Int) : List String → List String
  | [] => []
  | line :: lines =>
    if n ≤ 0 then line :: lines else afterClosed (n + openParentheses line) lines

theorem afterClosed_of_nonpos {n : Int} (h : n ≤ 0) (lines : List String) :
    afterClosed n lines = lines := by
  cases lines with
  | nil => rfl
  | cons line lines => exact if_pos h

/-- A conversation counts parentheses as the nesting level of a text does. -/
theorem openParentheses_eq_textLevel (text : String) :
    openParentheses text = textLevel text := by
  have hfold : ∀ (cs : List Char) (n : Int),
      cs.foldl (fun n c => if c = '(' then n + 1 else if c = ')' then n - 1 else n) n =
        n + (cs.map charLevel).sum := by
    intro cs
    induction cs with
    | nil => simp
    | cons c cs ih =>
      intro n
      rw [List.foldl_cons, ih, List.map_cons, List.sum_cons, charLevel]
      split
      · omega
      · split <;> omega
  exact (hfold text.toList 0).trans (zero_add _)

theorem openParentheses_append_line (text line : String) :
    openParentheses (text ++ " " ++ line) = openParentheses text + openParentheses line := by
  simp only [openParentheses_eq_textLevel, textLevel_append]
  have hspace : textLevel " " = 0 := rfl
  omega

theorem ne_empty_of_isComment {text : String} (h : isComment text = true) : text ≠ "" := by
  rintro rfl
  cases h

/-- A comment without open parentheses is dropped. -/
theorem enter_comment {text line : String} (hcomment : isComment text = true)
    (htext : (if v.pending = "" then line else v.pending ++ " " ++ line) = text)
    (hopen : ¬ 0 < openParentheses text) (hrunning : v.session.console.running = true) :
    v.enter line = (none, ⟨v.session, ""⟩) := by
  simp only [enter, htext, if_neg hopen, processLine_of_isComment hcomment]
  simp [shown, hrunning]

/-- A line with an open parenthesis waits for more. -/
theorem enter_open {text line : String}
    (htext : (if v.pending = "" then line else v.pending ++ " " ++ line) = text)
    (hopen : 0 < openParentheses text) : v.enter line = (none, { v with pending := text }) := by
  simp only [enter, htext, if_pos hopen]

theorem prompt_of_ne_empty {s : Session} {text : String} (h : text ≠ "") :
    (⟨s, text⟩ : Conversation).prompt = ⟨s.print "...... ", text⟩ := by
  rw [prompt, if_neg h]

/-- While a comment has open parentheses it takes the lines after it along. -/
theorem agrees_waiting (lines : List String) (s : Session) {text : String}
    (hrunning : s.console.running = true) (hcomment : isComment text = true)
    (hopen : 0 < openParentheses text) :
    Agrees ((⟨s, text⟩ : Conversation).resume (lines.map .line))
      ((⟨s, ""⟩ : Conversation).resume
        ((afterClosed (openParentheses text) lines).map .line)) := by
  induction lines generalizing s text with
  | nil =>
    refine ⟨rfl, ?_⟩
    simp only [afterClosed, List.map_nil, resume, react,
      prompt_of_ne_empty (ne_empty_of_isComment hcomment), withoutPrompts_printLine]
    rfl
  | cons line lines ih =>
    have hne : text ≠ "" := ne_empty_of_isComment hcomment
    have htext : (if text = "" then line else text ++ " " ++ line) = text ++ " " ++ line :=
      if_neg hne
    have hcomment' : isComment (text ++ " " ++ line) = true := by
      rw [String.append_assoc]
      exact isComment_append hcomment _
    -- the prompt for more is all that the waiting leaves behind
    have hsame : Agrees
        ((⟨s.print "...... ", ""⟩ : Conversation).resume
          ((afterClosed (openParentheses (text ++ " " ++ line)) lines).map .line))
        ((⟨s, ""⟩ : Conversation).resume
          ((afterClosed (openParentheses text) (line :: lines)).map .line)) := by
      rw [afterClosed, if_neg (by omega), openParentheses_append_line]
      exact agrees_resume _ rfl
    refine Agrees.trans ?_ hsame
    rw [List.map_cons, resume, prompt_of_ne_empty hne]
    by_cases hopen' : 0 < openParentheses (text ++ " " ++ line)
    · simp only [react, enter_open (v := ⟨s.print "...... ", text⟩) htext hopen']
      exact ih (s.print "...... ") hrunning hcomment' hopen'
    · -- the line closed the comment, which is dropped as a whole
      simp only [react, enter_comment (v := ⟨s.print "...... ", text⟩) hcomment' htext hopen'
        hrunning]
      rw [afterClosed_of_nonpos (by omega)]
      exact agrees_resume _ rfl

/-- A comment at an empty prompt leaves nothing behind but takes along the lines after it up to the
one that closes its parentheses. -/
theorem agrees_comment (lines : List String) (s : Session) {comment : String}
    (hrunning : s.console.running = true) (hcomment : isComment comment = true) :
    Agrees ((⟨s, ""⟩ : Conversation).resume ((comment :: lines).map .line))
      ((⟨s, ""⟩ : Conversation).resume
        ((afterClosed (openParentheses comment) lines).map .line)) := by
  rw [List.map_cons, resume]
  by_cases hopen : 0 < openParentheses comment
  · simp only [react, enter_open (v := prompt ⟨s, ""⟩) (if_pos rfl) hopen]
    refine (agrees_waiting lines (s.print "symcalc> ") hrunning hcomment hopen).trans ?_
    exact agrees_resume _ rfl
  · simp only [react, enter_comment (v := prompt ⟨s, ""⟩) hcomment (if_pos rfl) hopen hrunning]
    rw [afterClosed_of_nonpos (by omega)]
    exact agrees_resume _ rfl

/-- A comment that leaves no parenthesis open is skipped. -/
theorem agrees_closed_comment (after : List Keyboard) (s : Session) {comment : String}
    (hrunning : s.console.running = true) (hcomment : isComment comment = true)
    (hclosed : openParentheses comment ≤ 0) :
    Agrees ((⟨s, ""⟩ : Conversation).resume (.line comment :: after))
      ((⟨s, ""⟩ : Conversation).resume after) := by
  rw [resume]
  simp only [react,
    enter_comment (v := prompt ⟨s, ""⟩) hcomment (if_pos rfl) (by omega) hrunning]
  exact agrees_resume _ rfl

/-! ## The conversation before the comment -/

theorem running_of_enter {line : String} (hrunning : v.session.console.running = true)
    (hgoes : (v.enter line).1 = none) : (v.enter line).2.session.console.running = true := by
  unfold enter at hgoes ⊢
  generalize (if v.pending = "" then line else v.pending ++ " " ++ line) = text at hgoes ⊢
  by_cases hopen : 0 < openParentheses text
  · simpa only [if_pos hopen] using hrunning
  · simp only [if_neg hopen] at hgoes ⊢
    generalize v.session.processLine text = r at hgoes ⊢
    obtain ⟨e | answer, s⟩ := r
    · cases hgoes
    · simpa using hgoes

theorem running_of_react {k : Keyboard} (hrunning : v.session.console.running = true)
    (hgoes : (v.react k).1 = none) : (v.react k).2.session.console.running = true := by
  cases k with
  | line line => exact running_of_enter hrunning hgoes
  | interrupt =>
    simp only [react]
    split
    · exact hrunning
    · exact hrunning
  | eof => cases hgoes

/-- A conversation that still takes keys is running. -/
theorem running_of_afterKeys {before : List Keyboard} (hrunning : v.session.console.running = true)
    (h : v.afterKeys before = some w) : w.session.console.running = true := by
  induction before generalizing v with
  | nil =>
    obtain rfl : v = w := Option.some.inj h
    exact hrunning
  | cons k before ih =>
    have hreact := running_of_react (v := v.prompt) (k := k) hrunning
    rw [afterKeys] at h
    generalize v.prompt.react k = r at h hreact
    obtain ⟨_ | ending, v'⟩ := r
    · exact ih (hreact rfl) h
    · cases h

end Conversation

/-! ## Comments -/

/-- A comment that is entered when no line waits leaves no trace but prompts if it does not open
more parentheses than it closes. Otherwise the lines after it, up to the one that closes its
parentheses, are a part of the comment. -/
theorem converse_comment {s : Session} {before : List Keyboard} {w : Conversation}
    {comment : String} (hbefore : (Conversation.greet s).afterKeys before = some w)
    (hpending : w.pending = "") (hcomment : isComment comment = true) :
    (openParentheses comment ≤ 0 → ∀ after,
      Agrees (s.converse (before ++ .line comment :: after)) (s.converse (before ++ after))) ∧
    ∀ lines : List String,
      Agrees (s.converse (before ++ (comment :: lines).map .line))
        (s.converse
          (before ++ (Conversation.afterClosed (openParentheses comment) lines).map .line)) := by
  by_cases hrunning : s.console.running = true
  · obtain ⟨session, pending⟩ := w
    obtain rfl : pending = "" := hpending
    have hsession : session.console.running = true :=
      Conversation.running_of_afterKeys hrunning hbefore
    have hresume : ∀ keys, s.converse (before ++ keys) =
        (⟨session, ""⟩ : Conversation).resume keys := fun keys => by
      rw [converse, if_pos hrunning, Conversation.resume_append before keys _ hbefore]
    refine ⟨fun hclosed after => ?_, fun lines => ?_⟩
    · rw [hresume, hresume]
      exact Conversation.agrees_closed_comment after session hsession hcomment hclosed
    · rw [hresume, hresume]
      exact Conversation.agrees_comment lines session hsession hcomment
  · simp only [converse, if_neg hrunning]
    exact ⟨fun _ _ => ⟨rfl, rfl⟩, fun _ => ⟨rfl, rfl⟩⟩

/-- A closed comment before an interrupt, and an open one that ends on the second line after it. -/
theorem converse_comment_two_lines :
    ((Conversation.greet (start false)).afterKeys [.line ":tree on"]).map (·.pending) = some "" ∧
    isComment " # f(" = true ∧ isComment "# (a)" = true ∧ openParentheses "# (a)" ≤ 0 ∧
    Agrees ((start false).converse ([.line ":tree on"] ++ .line "# (a)" :: [.interrupt]))
      ((start false).converse ([.line ":tree on"] ++ [.interrupt])) ∧
    Agrees
      ((start false).converse ([.line ":tree on"] ++ [" # f(", "1+1", "2)", "x"].map .line))
      ((start false).converse ([.line ":tree on"] ++ ["x"].map .line)) := by
  have hbefore : ((Conversation.greet (start false)).afterKeys [.line ":tree on"]).map
      (·.pending) = some "" := by decide +kernel
  obtain ⟨w, hw, hpending⟩ := Option.map_eq_some_iff.1 hbefore
  have hopen : isComment " # f(" = true := by decide +kernel
  have hclosed : isComment "# (a)" = true := by decide +kernel
  have hlevel : openParentheses "# (a)" ≤ 0 := by decide +kernel
  have hrest : Conversation.afterClosed (openParentheses " # f(") ["1+1", "2)", "x"] = ["x"] := by
    decide +kernel
  exact ⟨hbefore, hopen, hclosed, hlevel,
    (converse_comment hw hpending hclosed).1 hlevel [.interrupt],
    hrest ▸ (converse_comment hw hpending hopen).2 ["1+1", "2)", "x"]⟩

/-- A comment with an open parenthesis swallows the line after it, which is answered without the
comment. -/
theorem comment_swallows_line :
    isComment "# (" = true ∧
    ((start false).converse [.line "# (", .line "1+1"]).2.withoutPrompts.output =
      "symcalc 0.1.0 - symbolic calculator\nType :help for help, :quit to exit\n\n\n" ∧
    ((start false).converse [.line "1+1"]).2.withoutPrompts.output =
      "symcalc 0.1.0 - symbolic calculator\nType :help for help, :quit to exit\n\n2\n\n" := by
  decide +kernel

end Session

end Reckoner
