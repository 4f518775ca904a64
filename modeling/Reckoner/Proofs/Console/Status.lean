import Mathlib.Data.List.DropRight
import Reckoner.Console.Session
import Reckoner.Proofs.Grammar.Material

/-!
# The status of a run

A script, an expression and the lines of standard input end with status one after an error. All that
they see of an error is the answer, and they tell it by its first five letters. So a result whose
text begins with the same letters ends a run too, although nothing went wrong; otherwise the status
reports errors and nothing else, and what came before is printed.
-/

namespace Reckoner

/-! ## Lines -/

theorem Text.strip_strip (cs : List Char) : Text.strip (Text.strip cs) = Text.strip cs := by
  have hprefix : Text.strip cs <+: cs.dropWhile Text.isBlank :=
    List.rdropWhile_prefix Text.isBlank _
  have hstart : Text.stripStart (Text.strip cs) = Text.strip cs := by
    cases hstrip : Text.strip cs with
    | nil => rfl
    | cons c ds =>
      rw [hstrip] at hprefix
      obtain ⟨es, hes⟩ := hprefix
      have hhead := List.head?_dropWhile_not Text.isBlank cs
      rw [← hes] at hhead
      exact List.dropWhile_cons_of_neg (by simpa using hhead)
  rw [Text.strip, hstart]
  exact List.rdropWhile_idempotent Text.isBlank _

/-- The line is a command. -/
def isCommand (line : String) : Bool := (Text.strip line.toList).head? = some ':'

/-- The expression of a line that is neither blank nor a comment nor a command. -/
def expression? (line : String) : Option String :=
  match Text.strip line.toList with
  | [] => none
  | '#' :: _ => none
  | ':' :: _ => none
  | cs => some (String.ofList cs)

/-- A line that is neither empty nor a comment nor a command is an expression. -/
theorem expression?_of_strip {line : String} (hnil : Text.strip line.toList ≠ [])
    (hcomment : ∀ cs, Text.strip line.toList ≠ '#' :: cs)
    (hcolon : ∀ cs, Text.strip line.toList ≠ ':' :: cs) :
    expression? line = some (String.ofList (Text.strip line.toList)) := by
  unfold expression?
  split
  · next hstrip => exact absurd hstrip hnil
  · next hstrip => exact absurd hstrip (hcomment _)
  · next hstrip => exact absurd hstrip (hcolon _)
  · rfl

namespace Calculation

variable {α : Type} {x : Calculation α} {s : Stores}

theorem reported_of_ok {a : α} (h : (x s).value = .ok a) :
    (x.reported s).value = .ok (.ok a) := by
  unfold reported
  generalize x s = o at h ⊢
  obtain ⟨value, stores, trace⟩ := o
  obtain rfl : value = .ok a := h
  rfl

/-- An error with a message becomes that message, and any other escapes. -/
theorem reported_of_error {e : CalculationError} (h : (x s).value = .error e) :
    (x.reported s).value = e.message?.elim (.error e) fun message => .ok (.error message) := by
  unfold reported
  generalize x s = o at h ⊢
  obtain ⟨value, stores, trace⟩ := o
  obtain rfl : value = .error e := h
  cases hmessage : e.message? with
  | none => simp only [hmessage, Option.elim_none]
  | some message => simp only [hmessage, Option.elim_some]

end Calculation

namespace Console

variable {c : Console} {text line : String} {s : Stores}

/-- An answer is the message of an error, or begins with the text of a result. -/
theorem answer_eq_ok {a : String} (h : (c.answer text s).value = .ok a) :
    (∃ e message, (c.result text s).value = .error e ∧ e.message? = some message ∧
      a = "Error: " ++ message) ∨
    ∃ e shown, (c.result text s).value = .ok (e, shown) ∧
      (a = shown ∨ ∃ outline, a = shown ++ "\n" ++ outline) := by
  unfold answer at h
  cases hresult : (c.result text s).value with
  | error e =>
    have hreported := Calculation.reported_of_error hresult
    cases hmessage : e.message? with
    | none =>
      rw [hmessage, Option.elim_none] at hreported
      rw [Calculation.bind_of_error hreported] at h
      cases h
    | some message =>
      rw [hmessage, Option.elim_some] at hreported
      rw [Calculation.bind_of_ok hreported] at h
      obtain rfl : "Error: " ++ message = a := Except.ok.inj h
      exact .inl ⟨e, message, rfl, hmessage, rfl⟩
  | ok result =>
    obtain ⟨e, shown⟩ := result
    refine .inr ⟨e, shown, rfl, ?_⟩
    rw [Calculation.bind_of_ok (Calculation.reported_of_ok hresult)] at h
    simp only at h
    split at h
    · cases houtline : e.outline? Expr.outlineIndent with
      | error err =>
        rw [houtline] at h
        cases h
      | ok outline =>
        rw [houtline] at h
        obtain rfl : shown ++ "\n" ++ outline = a := Except.ok.inj h
        exact .inr ⟨outline, rfl⟩
    · obtain rfl : shown = a := Except.ok.inj h
      exact .inl rfl

/-- A line that is no command is answered if it has an expression. -/
theorem processLine_of_expression (hcommand : isCommand line = false) :
    c.processLine line = match expression? line with
      | none => pure (none, c)
      | some text => do return (some (← c.answer text), c) := by
  rw [processLine]
  split
  · next hstrip => simp only [expression?, hstrip]
  · next hstrip => simp only [expression?, hstrip]
  · next hstrip =>
    rw [isCommand, hstrip] at hcommand
    cases hcommand
  · next hnil hcomment hcolon => rw [expression?_of_strip hnil hcomment hcolon]

/-- Blanks around a line do not matter. -/
theorem processLine_of_strip (line : String) :
    c.processLine (String.ofList (Text.strip line.toList)) = c.processLine line := by
  unfold processLine
  rw [String.toList_ofList, Text.strip_strip]

end Console

namespace Session

variable {s s' : Session} {line : String}

/-! ## What is printed -/

theorem output_print (s : Session) (text : String) :
    (s.print text).output = s.output ++ text := by
  simp [output, print]

theorem output_printLine (s : Session) (text : String) :
    (s.printLine text).output = s.output ++ (text ++ "\n") :=
  s.output_print (text ++ "\n")

@[simp] theorem output_complain (s : Session) (text : String) :
    (s.complain text).output = s.output := by
  simp [output, complain]

theorem output_foldl_complain (lines : List String) (s : Session) :
    (lines.foldl complain s).output = s.output := by
  induction lines generalizing s with
  | nil => rfl
  | cons line lines ih => rw [List.foldl_cons, ih, output_complain]

theorem output_run {α : Type} (s : Session) (x : Calculation α) :
    (s.run x).2.output = s.output := by
  unfold run
  dsimp only
  split
  · rw [output_foldl_complain]
    rfl
  · rfl

/-- Only the log is printed while an answer is made. -/
theorem output_runConsole (s : Session) (x : Calculation (Option String × Console)) :
    (s.runConsole x).2.output = s.output := by
  have hrun := s.output_run x
  unfold runConsole
  split
  · next h =>
    rw [h] at hrun
    exact hrun
  · next h =>
    rw [h] at hrun
    exact hrun

/-- A line by itself prints nothing; its answer is printed by whoever asked. -/
theorem output_processLine (s : Session) (line : String) :
    (s.processLine line).2.output = s.output := s.output_runConsole _

theorem processLine_of_strip (s : Session) (line : String) :
    s.processLine (String.ofList (Text.strip line.toList)) = s.processLine line := by
  unfold processLine
  rw [Console.processLine_of_strip]

theorem value_processLine (s : Session) (line : String) :
    (s.processLine line).1 = (s.console.processLine line s.stores).value.map Prod.fst := by
  have hrun : (s.run (s.console.processLine line)).1 =
      (s.console.processLine line s.stores).value := rfl
  rw [← hrun]
  unfold processLine runConsole
  split
  · next h => rw [h]; rfl
  · next h => rw [h]; rfl

/-! ## Errors and answers that look like errors -/

/-- Reading, evaluating or writing the expression of the line fails with an error that has a
message. -/
def Raises (s : Session) (line : String) : Prop :=
  ∃ text e message, expression? line = some text ∧
    (s.console.result text s.stores).value = .error e ∧ e.message? = some message

/-- The expression of the line has a result, and its text begins like the answer to an error. -/
def Misleads (s : Session) (line : String) : Prop :=
  ∃ text e shown, expression? line = some text ∧
    (s.console.result text s.stores).value = .ok (e, shown) ∧ isError shown = true

/-- The answer to an error is taken for an error. -/
theorem isError_message (message : String) : isError ("Error: " ++ message) = true := by
  simp [isError]

/-- Of several lines only the first one has to do with a beginning that is one line. -/
theorem isPrefixOf_append_newline {ps : List Char} (h : '\n' ∉ ps) (cs ds : List Char) :
    ps.isPrefixOf (cs ++ '\n' :: ds) = ps.isPrefixOf cs := by
  induction ps generalizing cs with
  | nil => simp
  | cons p ps ih =>
    rw [List.mem_cons, not_or] at h
    cases cs with
    | nil =>
      have hp : (p == '\n') = false := beq_false_of_ne (Ne.symm h.1)
      simp [List.isPrefixOf, hp]
    | cons c cs => simp [List.isPrefixOf, ih h.2 cs]

/-- What is printed after an answer does not change what it is taken for. -/
theorem isError_append_newline (shown rest : String) :
    isError (shown ++ "\n" ++ rest) = isError shown := by
  have hchars : (shown ++ "\n" ++ rest).toList = shown.toList ++ '\n' :: rest.toList := by simp
  unfold isError
  rw [hchars]
  exact isPrefixOf_append_newline (by decide) _ _

/-- An answer to a line that is no command begins like that to an error exactly if there was an
error or the text of the result begins so. -/
theorem isError_processLine (hcommand : isCommand line = false) {answer : Option String}
    (h : (s.processLine line).1 = .ok answer) :
    isError (shown answer) = true ↔ s.Raises line ∨ s.Misleads line := by
  rw [value_processLine, Console.processLine_of_expression hcommand] at h
  cases hexpression : expression? line with
  | none =>
    rw [hexpression] at h
    obtain rfl : none = answer := Except.ok.inj h
    have hempty : isError (shown none) = false := by decide
    simp [Raises, Misleads, hexpression, hempty]
  | some text =>
    rw [hexpression] at h
    simp only at h
    cases ha : (s.console.answer text s.stores).value with
    | error e =>
      rw [Calculation.bind_of_error ha] at h
      cases h
    | ok a =>
      rw [Calculation.bind_of_ok ha] at h
      obtain rfl : some a = answer := Except.ok.inj h
      show isError a = true ↔ _
      rcases Console.answer_eq_ok ha with ⟨e, message, hresult, hmessage, rfl⟩ |
        ⟨e, shown, hresult, htext⟩
      · have hraises : s.Raises line := ⟨text, e, message, hexpression, hresult, hmessage⟩
        exact iff_of_true (isError_message message) (.inl hraises)
      · -- an outline is printed below the result and does not change how it begins
        have hshown : isError a = isError shown := by
          rcases htext with rfl | ⟨outline, rfl⟩
          · rfl
          · exact isError_append_newline shown outline
        rw [hshown]
        simp [Raises, Misleads, hexpression, hresult]

/-! ## Runs -/

/-- What a run does at a line with its number: it ends, or it goes on. -/
abbrev Step := Nat → Session → String → Option Ending × Session

/-- Runs lines one after the other, for as long as the run does not end. -/
def feed (step : Step) (s : Session) (number : Nat) : List String → Option Ending × Session
  | [] => (none, s)
  | line :: rest =>
    match step number s line with
    | (some ending, s) => (some ending, s)
    | (none, s) => s.feed step (number + 1) rest

/-- A run that does not end before it has no more lines ends well. -/
def closed (p : Option Ending × Session) : Ending × Session := (p.1.getD (.exit 0), p.2)

/-- The answer to a line as it is printed, if it is one of those that are printed. -/
def announcement (announced : String → Bool) (s : Session) (line : String) : String :=
  match (s.processLine line).1 with
  | .ok answer => if announced line && shown answer ≠ "" then shown answer ++ "\n" else ""
  | .error _ => ""

/-- The answers to lines as they are printed. -/
def announcements (step : Step) (announced : String → Bool) (s : Session) (number : Nat) :
    List String → String
  | [] => ""
  | line :: rest =>
    s.announcement announced line ++
      announcements step announced (step number s line).2 (number + 1) rest

variable {step : Step} {announced : String → Bool} {number : Nat} {answer : Option String}

/-- An answer that begins like that to an error ends the run with status one, no other answer ends
it, and the answers that are announced are printed. -/
structure Reports (step : Step) (announced : String → Bool) : Prop where
  ends : ∀ {number s line answer}, isCommand line = false → (s.processLine line).1 = .ok answer →
    isError (shown answer) = true →
      ∃ s', step number s line = (some (.exit 1), s') ∧ s'.output = s.output
  goes : ∀ {number s line answer}, isCommand line = false → (s.processLine line).1 = .ok answer →
    isError (shown answer) = false → ∃ s', step number s line = (none, s')
  prints : ∀ {number s line s'}, step number s line = (none, s') →
    s'.output = s.output ++ s.announcement announced line

/-- Lines that end nothing are fed one after the other. -/
theorem feed_append {before : List String} (h : s.feed step number before = (none, s'))
    (rest : List String) :
    s.feed step number (before ++ rest) = s'.feed step (number + before.length) rest := by
  induction before generalizing s number with
  | nil =>
    obtain rfl : s = s' := (Prod.mk.inj h).2
    rfl
  | cons line before ih =>
    rw [feed] at h
    rw [List.cons_append, feed, List.length_cons, ← Nat.add_assoc, Nat.add_right_comm]
    generalize step number s line = r at h ⊢
    obtain ⟨_ | ending, s₁⟩ := r
    · exact ih h
    · cases h

/-- As long as nothing ends the run, exactly the announcements of its lines are printed. -/
theorem Reports.output_feed (hstep : Reports step announced) {before : List String}
    (h : s.feed step number before = (none, s')) :
    s'.output = s.output ++ s.announcements step announced number before := by
  induction before generalizing s number with
  | nil =>
    obtain rfl : s = s' := (Prod.mk.inj h).2
    rw [announcements, String.append_empty]
  | cons line before ih =>
    rw [feed] at h
    rw [announcements]
    cases hline : step number s line with
    | mk ending s₁ =>
      rw [hline] at h
      cases ending with
      | none => rw [ih h, hstep.prints hline, String.append_assoc]
      | some ending => cases h

/-- A run that comes to the line in the state stops there with status one if there is an error or
the result looks like one, and otherwise goes on with the lines after it. The answers to the lines
before it have been printed by then, those that are announced. -/
def StopsOnError (step : Step) (announced : String → Bool)
    (run : Session → Nat → List String → Ending × Session) (s' : Session) (line : String) : Prop :=
  ∀ s number before after, s.feed step number before = (none, s') →
    s'.output = s.output ++ s.announcements step announced number before ∧
    (s'.Raises line ∨ s'.Misleads line →
      ∃ s'', run s number (before ++ line :: after) = (.exit 1, s'') ∧ s''.output = s'.output) ∧
    (¬(s'.Raises line ∨ s'.Misleads line) →
      ∃ s'', s.feed step number (before ++ [line]) = (none, s'') ∧
        run s number (before ++ line :: after) = run s'' (number + before.length + 1) after)

/-- A run of a step that reports ends at the first line taken for an error, with what came before
printed. -/
theorem Reports.stopsOnError (hstep : Reports step announced)
    {run : Session → Nat → List String → Ending × Session}
    (hrun : ∀ s number lines, run s number lines = closed (s.feed step number lines))
    (hcommand : isCommand line = false) (hanswer : (s'.processLine line).1 = .ok answer) :
    StopsOnError step announced run s' line := by
  intro s number before after hbefore
  have herror := isError_processLine hcommand hanswer
  refine ⟨hstep.output_feed hbefore, fun h => ?_, fun h => ?_⟩
  · obtain ⟨s'', hline, houtput⟩ := hstep.ends hcommand hanswer (herror.2 h)
    refine ⟨s'', ?_, houtput⟩
    rw [hrun, feed_append hbefore, feed, hline]
    rfl
  · obtain ⟨s'', hline⟩ := hstep.goes hcommand hanswer
      (Bool.eq_false_iff.2 fun heq => h (herror.1 heq))
    refine ⟨s'', ?_, ?_⟩
    · rw [feed_append hbefore, feed, hline]
      rfl
    · rw [hrun, hrun, feed_append hbefore, feed, hline]

/-! ### Replies -/

/-- What follows from the answer to a line: it may be an error, and is printed otherwise. -/
def reply (complaint : String → String) (quiet : Bool) :
    Except CalculationError (Option String) × Session → Option Ending × Session
  | (.error e, s) => (some (.failed e), s)
  | (.ok answer, s) =>
    if isError (shown answer) then (some (.exit 1), s.complain (complaint (shown answer)))
    else (none, if shown answer = "" || quiet then s else s.printLine (shown answer))

section Reply

variable (complaint : String → String) (quiet : Bool)

/-- An answer taken for an error ends the run with status one and prints nothing more. -/
theorem reply_of_isError (h : (s.processLine line).1 = .ok answer)
    (herror : isError (shown answer) = true) :
    ∃ s', reply complaint quiet (s.processLine line) = (some (.exit 1), s') ∧
      s'.output = s.output := by
  have houtput := s.output_processLine line
  generalize s.processLine line = r at h houtput ⊢
  obtain ⟨value, s'⟩ := r
  obtain rfl : value = .ok answer := h
  refine ⟨_, if_pos herror, ?_⟩
  rw [output_complain, houtput]

/-- An answer that is not taken for an error lets the run go on. -/
theorem reply_of_not_isError (h : (s.processLine line).1 = .ok answer)
    (herror : isError (shown answer) = false) :
    ∃ s', reply complaint quiet (s.processLine line) = (none, s') := by
  generalize s.processLine line = r at h ⊢
  obtain ⟨value, s'⟩ := r
  obtain rfl : value = .ok answer := h
  exact ⟨_, if_neg (by simp [herror])⟩

/-- A run that goes on has printed the answer, unless it is quiet. -/
theorem output_reply (h : reply complaint quiet (s.processLine line) = (none, s')) :
    s'.output = s.output ++ s.announcement (fun _ => !quiet) line := by
  have houtput := s.output_processLine line
  unfold announcement
  generalize s.processLine line = r at h houtput ⊢
  obtain ⟨e | answer, s₁⟩ := r
  · cases h
  · dsimp only [reply] at h houtput ⊢
    split at h
    · cases h
    · obtain rfl := (Prod.mk.inj h).2
      by_cases hempty : shown answer = ""
      · simp [hempty, houtput]
      · cases quiet with
        | true => simp [houtput]
        | false => simp [hempty, houtput, output_printLine]

end Reply

/-! ### Standard input -/

/-- The filter feeds its lines to one step. -/
theorem runInput_eq_feed (s : Session) (number : Nat) (lines : List String) :
    s.runInput lines = closed (s.feed (fun _ => printAnswer) number lines) := by
  induction lines generalizing s number with
  | nil => rfl
  | cons line lines ih =>
    rw [runInput, feed]
    obtain ⟨_ | ending, s'⟩ := s.printAnswer line
    · exact ih s' (number + 1)
    · rfl

/-- The filter replies to every line, and it complains in the words of the answer. -/
theorem printAnswer_eq_reply (s : Session) (line : String) :
    s.printAnswer line = reply id false (s.processLine line) := by
  unfold printAnswer
  obtain ⟨e | answer, s'⟩ := s.processLine line
  · rfl
  · dsimp only [reply, id]
    by_cases hempty : shown answer = ""
    · have hplain : isError "" = false := by decide
      simp [hempty, hplain]
    · simp [hempty]

/-- The filter reports, and it announces every answer. -/
theorem reports_printAnswer : Reports (fun _ => printAnswer) fun _ => true where
  ends _ hanswer herror := by
    rw [printAnswer_eq_reply]
    exact reply_of_isError _ _ hanswer herror
  goes _ hanswer herror := by
    rw [printAnswer_eq_reply]
    exact reply_of_not_isError _ _ hanswer herror
  prints h := by
    rw [printAnswer_eq_reply] at h
    exact output_reply _ _ h

/-! ### Scripts -/

/-- What a script does at a line. -/
def scriptStep (path : String) (quiet : Bool) : Step := fun number s line =>
  let fault (answer : String) := path ++ ":" ++ toString number ++ ": " ++ answer
  if isCommand line then
    match s.handleCommand (String.ofList (Text.strip line.toList)) with
    | (.error e, s) => (some (.failed e), s)
    | (.ok answer, s) =>
      if isUnknownCommand (shown answer) then (some (.exit 1), s.complain (fault (shown answer)))
      else if s.console.running then (none, s)
      else (some (.exit 0), s)
  else reply fault quiet (s.processLine line)

theorem processLine_of_silent (hcommand : isCommand line = false)
    (h : expression? line = none) : s.processLine line = (.ok none, s) := by
  unfold processLine
  rw [Console.processLine_of_expression hcommand, h]
  obtain ⟨stores, console, verbose, printed⟩ := s
  cases verbose with
  | false => rfl
  | true => rfl

theorem scriptStep_of_silent (hcommand : isCommand line = false) (h : expression? line = none)
    (path : String) (quiet : Bool) (number : Nat) :
    scriptStep path quiet number s line = (none, s) := by
  rw [scriptStep, hcommand, if_neg Bool.false_ne_true, processLine_of_silent hcommand h]
  rfl

/-- A script feeds its lines to one step. -/
theorem runLines_eq_feed (path : String) (quiet : Bool) (s : Session) (number : Nat)
    (lines : List String) :
    s.runLines path quiet number lines = closed (s.feed (scriptStep path quiet) number lines) := by
  induction lines generalizing s number with
  | nil => rfl
  | cons line lines ih =>
    rw [runLines, feed]
    split
    · next hstrip =>
      rw [scriptStep_of_silent (by rw [isCommand, hstrip]; rfl) (by rw [expression?, hstrip])]
      exact ih s (number + 1)
    · next hstrip =>
      rw [scriptStep_of_silent (by rw [isCommand, hstrip]; rfl) (by rw [expression?, hstrip]; rfl)]
      exact ih s (number + 1)
    · -- a command goes past the line processor, and it may end the script
      next cs hstrip =>
      rw [scriptStep, isCommand, hstrip, List.head?_cons, decide_eq_true rfl, if_pos rfl]
      obtain ⟨e | answer, s'⟩ := s.handleCommand (String.ofList (':' :: cs))
      · rfl
      · dsimp only
        split
        · rfl
        · split
          · exact ih s' (number + 1)
          · rfl
    · next hnil hcomment hcolon =>
      have hcommand : isCommand line = false := decide_eq_false fun h => by
        obtain ⟨cs, hcs⟩ := List.head?_eq_some_iff.1 h
        exact hcolon cs hcs
      rw [scriptStep, hcommand, if_neg Bool.false_ne_true, processLine_of_strip]
      -- an error that escapes ends the script, and so does an answer taken for an error
      obtain ⟨e | answer, s'⟩ := s.processLine line
      · rfl
      · dsimp only [reply]
        split
        · rfl
        · exact ih _ (number + 1)

/-- A script replies to every line but commands, and its complaints name the place. -/
theorem scriptStep_eq_reply (hcommand : isCommand line = false) (path : String) (quiet : Bool)
    (number : Nat) : scriptStep path quiet number s line =
      reply (fun answer => path ++ ":" ++ toString number ++ ": " ++ answer) quiet
        (s.processLine line) := by
  rw [scriptStep, hcommand, if_neg Bool.false_ne_true]

/-- A script reports, and it announces what is neither quiet nor a command. -/
theorem reports_scriptStep (path : String) (quiet : Bool) :
    Reports (scriptStep path quiet) fun line => !quiet && !isCommand line where
  ends hcommand hanswer herror := by
    rw [scriptStep_eq_reply hcommand]
    exact reply_of_isError _ _ hanswer herror
  goes hcommand hanswer herror := by
    rw [scriptStep_eq_reply hcommand]
    exact reply_of_not_isError _ _ hanswer herror
  prints {number s line s'} h := by
    cases hcommand : isCommand line with
    | false =>
      rw [scriptStep_eq_reply hcommand] at h
      have houtput := output_reply _ _ h
      unfold announcement at houtput ⊢
      simpa [hcommand] using houtput
    | true =>
      -- the answer to a command is not printed
      have hsilent : s.announcement (fun line => !quiet && !isCommand line) line = "" := by
        unfold announcement
        cases (s.processLine line).1 <;> simp [hcommand]
      have houtput : (s.handleCommand (String.ofList (Text.strip line.toList))).2.output =
          s.output := s.output_runConsole _
      rw [hsilent, String.append_empty]
      rw [scriptStep, hcommand, if_pos rfl] at h
      generalize s.handleCommand (String.ofList (Text.strip line.toList)) = r at h houtput
      obtain ⟨e | answer, s₁⟩ := r
      · cases h
      · dsimp only at h
        split at h
        · cases h
        · split at h
          · cases h
            exact houtput
          · cases h

/-! ### Expressions -/

/-- A single expression has the status of its answer. -/
theorem runExpression_of_isError {text : String} (h : (s.processLine text).1 = .ok answer) :
    (s.runExpression text).1 = .exit (if isError (shown answer) then 1 else 0) := by
  unfold runExpression
  rw [printAnswer_eq_reply]
  cases herror : isError (shown answer) with
  | false =>
    obtain ⟨s', hreply⟩ := reply_of_not_isError id false h herror
    rw [hreply]
    rfl
  | true =>
    obtain ⟨s', hreply, -⟩ := reply_of_isError id false h herror
    rw [hreply]
    rfl

/-- The status of an expression. -/
theorem runExpression_status {text : String} (hcommand : isCommand text = false)
    (h : (s.processLine text).1 = .ok answer) :
    ((s.runExpression text).1 = .exit 1 ↔ s.Raises text ∨ s.Misleads text) ∧
      ((s.runExpression text).1 = .exit 0 ↔ ¬(s.Raises text ∨ s.Misleads text)) := by
  rw [← isError_processLine hcommand h, runExpression_of_isError h]
  cases isError (shown answer) <;> simp

/-! ## All ways to run -/

/-- With a line that is no command and is answered, an expression, a script and standard input end
with status one if there is an error or the result looks like one. Otherwise an expression ends with
status zero, and a script and standard input go on. So the status is right exactly where no result
looks like an error. The answers that come before it are printed. -/
theorem status_of_runs (s : Session) (line : String) (answer : Option String)
    (hcommand : isCommand line = false) (hanswer : (s.processLine line).1 = .ok answer) :
    (((s.runExpression line).1 = .exit 1 ↔ s.Raises line ∨ s.Misleads line) ∧
      ((s.runExpression line).1 = .exit 0 ↔ ¬(s.Raises line ∨ s.Misleads line))) ∧
    (∀ path quiet, StopsOnError (scriptStep path quiet) (fun line => !quiet && !isCommand line)
      (runLines path quiet) s line) ∧
    StopsOnError (fun _ => printAnswer) (fun _ => true) (fun s _ lines => s.runInput lines)
      s line := by
  refine ⟨runExpression_status hcommand hanswer, fun path quiet => ?_, ?_⟩
  · exact (reports_scriptStep path quiet).stopsOnError (runLines_eq_feed path quiet) hcommand
      hanswer
  · exact reports_printAnswer.stopsOnError runInput_eq_feed hcommand hanswer

/-- A script that prints the value of `x` and then divides by zero. -/
theorem status_of_runs_division :
    ∃ s', (start false).feed (scriptStep "a" false) 1 ["x=1"] = (none, s') ∧ s'.Raises "1/0" ∧
      s'.output = "1\n" ∧
      ∃ s'', (start false).runLines "a" false 1 (["x=1"] ++ "1/0" :: ["x"]) = (.exit 1, s'') ∧
        s''.output = s'.output := by
  have hfeed : ((start false).feed (scriptStep "a" false) 1 ["x=1"]).1 = none := by
    have hnone : ((start false).feed (scriptStep "a" false) 1 ["x=1"]).1.isNone = true := by
      decide +kernel
    exact Option.isNone_iff_eq_none.1 hnone
  have hanswer : (((start false).feed (scriptStep "a" false) 1 ["x=1"]).2.processLine "1/0").1 =
      .ok (some "Error: Division by zero (at position 1)") := by decide +kernel
  have houtput : ((start false).feed (scriptStep "a" false) 1 ["x=1"]).2.output = "1\n" := by
    decide +kernel
  have hraises : ((start false).feed (scriptStep "a" false) 1 ["x=1"]).2.Raises "1/0" :=
    ⟨"1/0", .reading (.divisionByZero 1), _, by decide +kernel,
      eq_error_of_map (by decide +kernel), rfl⟩
  have hbefore : (start false).feed (scriptStep "a" false) 1 ["x=1"] = (none, _) :=
    Prod.ext hfeed rfl
  obtain ⟨-, hscript, -⟩ := status_of_runs _ "1/0" _ (by decide +kernel) hanswer
  have hstops := hscript "a" false (start false) 1 ["x=1"] ["x"] hbefore
  exact ⟨_, hbefore, hraises, houtput, hstops.2.1 (.inl hraises)⟩

/-- The variable `Error` is its own result, which is taken for an error. -/
theorem runExpression_misled :
    ((start false).processLine "Error").1 = .ok (some "Error") ∧
      ¬(start false).Raises "Error" ∧ ((start false).runExpression "Error").1 = .exit 1 ∧
      ((start false).runExpression "Error").2.output = "" ∧
      ((start false).runExpression "Error").2.errors = "Error\n" := by
  have hanswer : ((start false).processLine "Error").1 = .ok (some "Error") := by decide +kernel
  have hexpression : expression? "Error" = some "Error" := by decide +kernel
  obtain ⟨result, hresult, -⟩ := exists_eq_ok (p := fun _ => true)
    (show (((start false).console.result "Error" (start false).stores).value.toOption.any
      fun _ => true) = true by decide +kernel)
  refine ⟨hanswer, ?_, runExpression_of_isError hanswer, by decide +kernel, by decide +kernel⟩
  rintro ⟨text, e, message, htext, herror, -⟩
  obtain rfl : "Error" = text := Option.some.inj (hexpression.symm.trans htext)
  rw [hresult] at herror
  cases herror

end Session

end Reckoner
