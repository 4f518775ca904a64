import Reckoner.Console.Session

/-!
# The end of a session

A quit command changes one setting and prints nothing. A script and a conversation look at that
setting after every line that may have changed it, so what comes out of them does not depend on the
lines after the command. The filter that answers the lines of standard input does not look: it goes
on as if the command was not there.
-/

namespace Reckoner

/-- The line is a command to end the session. -/
def isQuit (line : String) : Bool :=
  match Text.strip line.toList with
  | ':' :: cs => Command.ofChars cs = .quit
  | _ => false

/-- A line is the command if it is so once the blanks around it are dropped. -/
theorem isQuit_iff {line : String} : isQuit line = true ↔
    ∃ cs, Text.strip line.toList = ':' :: cs ∧ Command.ofChars cs = .quit := by
  unfold isQuit
  split
  · next cs h => simp [h]
  · next h =>
    simp only [Bool.false_eq_true, false_iff, not_exists, not_and]
    exact fun cs hcs => absurd hcs (h cs)

/-! ## The setting that the command changes

Nothing a console does depends on it, so a console that has been asked to end answers every line as
before. -/

namespace Console

/-- The settings after a quit command. -/
def halted (c : Console) : Console := { c with running := false }

/-- The second calculation is the first one, except that it ends with a console that was asked to
end. -/
def Halts (x y : Calculation (Option String × Console)) : Prop :=
  ∀ s, y s = ⟨(x s).value.map fun p => (p.1, p.2.halted), (x s).stores, (x s).trace⟩

theorem halts_pure {answer : Option String} {c : Console} :
    Halts (pure (answer, c)) (pure (answer, c.halted)) := fun _ => rfl

theorem Halts.bind {α : Type} (x : Calculation α)
    {f g : α → Calculation (Option String × Console)} (h : ∀ a, Halts (f a) (g a)) :
    Halts (x >>= f) (x >>= g) := by
  intro s
  cases hx : (x s).value with
  | error e => rw [Calculation.bind_of_error hx, Calculation.bind_of_error hx]; rfl
  | ok a => rw [Calculation.bind_of_ok hx, Calculation.bind_of_ok hx, h a]

/-- No command looks at the setting. -/
theorem halts_perform (c : Console) (command : Command) :
    Halts (c.perform command) (c.halted.perform command) := by
  cases command with
  | help => exact halts_pure
  | quit => exact halts_pure
  | bindings => exact Halts.bind _ fun _ => halts_pure
  | operators => exact Halts.bind _ fun _ => halts_pure
  | undefine name => exact Halts.bind _ fun _ => halts_pure
  | clear => exact Halts.bind _ fun _ => halts_pure
  | evaluation setting => exact halts_pure
  | tree setting => exact halts_pure
  | unknown name => exact halts_pure
  | missing => exact halts_pure

/-- No line looks at the setting. -/
theorem halts_processLine (c : Console) (line : String) :
    Halts (c.processLine line) (c.halted.processLine line) := by
  unfold processLine
  split
  · exact halts_pure
  · exact halts_pure
  · exact halts_perform c _
  · exact Halts.bind _ fun _ => halts_pure

end Console

namespace Session

variable {s : Session} {q : String}

/-- The session after a quit command. -/
def halted (s : Session) : Session := { s with console := s.console.halted }

theorem foldl_complain_halted (lines : List String) (s : Session) :
    (lines.foldl complain s).halted = lines.foldl complain s.halted := by
  induction lines generalizing s with
  | nil => rfl
  | cons line lines ih => exact ih (s.complain line)

theorem run_halted {α : Type} (s : Session) (x : Calculation α) :
    s.halted.run x = ((s.run x).1, (s.run x).2.halted) := by
  obtain ⟨stores, console, verbose, printed⟩ := s
  cases verbose with
  | false => rfl
  | true =>
    exact Prod.ext rfl
      (foldl_complain_halted (x stores).trace.lines
        ⟨(x stores).stores, console, true, printed⟩).symm

/-- What a line answers does not depend on the setting, and the setting stays cleared. -/
theorem runConsole_halted {x y : Calculation (Option String × Console)}
    (h : Console.Halts x y) (s : Session) :
    s.halted.runConsole y = ((s.runConsole x).1, (s.runConsole x).2.halted) := by
  have hrun : s.run y = ((s.run x).1.map fun p => (p.1, p.2.halted), (s.run x).2) := by
    unfold run
    rw [h]
  unfold runConsole
  rw [run_halted, hrun]
  obtain ⟨e | ⟨answer, c⟩, s'⟩ := s.run x
  · rfl
  · rfl

/-- A session that has been asked to end answers a line as before. -/
theorem processLine_halted (s : Session) (line : String) :
    s.halted.processLine line = ((s.processLine line).1, (s.processLine line).2.halted) :=
  runConsole_halted (s.console.halts_processLine line) s

/-! ## The command -/

/-- The command clears the setting and answers nothing. -/
theorem runConsole_quit (s : Session) :
    s.runConsole (s.console.perform .quit) = (.ok none, s.halted) := by
  obtain ⟨stores, console, verbose, printed⟩ := s
  cases verbose <;> rfl

/-- A line with the command clears the setting and answers nothing. -/
theorem processLine_quit (hq : isQuit q = true) (s : Session) :
    s.processLine q = (.ok none, s.halted) := by
  obtain ⟨cs, hcs, hquit⟩ := isQuit_iff.1 hq
  unfold processLine Console.processLine
  simp only [hcs, hquit]
  exact s.runConsole_quit

theorem handleCommand_quit {cs : List Char} (h : Command.ofChars cs = .quit) (s : Session) :
    s.handleCommand (String.ofList (':' :: cs)) = (.ok none, s.halted) := by
  unfold handleCommand Console.handleCommand
  rw [String.toList_ofList, List.drop_one, List.tail_cons, h]
  exact s.runConsole_quit

/-! ## Scripts -/

/-- A script ends at the line with the command, whatever lines are left. -/
theorem runLines_quit (hq : isQuit q = true) (path : String) (quiet : Bool) (s : Session)
    (number : Nat) (rest : List String) :
    s.runLines path quiet number (q :: rest) = (.exit 0, s.halted) := by
  obtain ⟨cs, hcs, hquit⟩ := isQuit_iff.1 hq
  rw [runLines, hcs]
  simp only [handleCommand_quit hquit]
  rfl

/-- What a script does does not depend on what stands after a quit command. -/
theorem runLines_append_quit (hq : isQuit q = true) (path : String) (quiet : Bool)
    (before after : List String) (s : Session) (number : Nat) :
    s.runLines path quiet number (before ++ q :: after) =
      s.runLines path quiet number (before ++ [q]) := by
  induction before generalizing s number with
  | nil =>
    rw [List.nil_append, List.nil_append, runLines_quit hq, runLines_quit hq]
  | cons line before ih => simp only [List.cons_append, runLines, ih]

/-! ## Standard input -/

/-- The filter prints nothing for the command. -/
theorem printAnswer_quit (hq : isQuit q = true) (s : Session) :
    s.printAnswer q = (none, s.halted) := by
  unfold printAnswer
  rw [processLine_quit hq]
  rfl

theorem printAnswer_halted (s : Session) (line : String) :
    s.halted.printAnswer line = ((s.printAnswer line).1, (s.printAnswer line).2.halted) := by
  unfold printAnswer
  rw [processLine_halted]
  obtain ⟨e | answer, s'⟩ := s.processLine line
  · rfl
  · dsimp only
    split
    · rfl
    · split <;> rfl

/-- The filter answers the same with the setting cleared. -/
theorem runInput_halted (lines : List String) (s : Session) :
    s.halted.runInput lines = ((s.runInput lines).1, (s.runInput lines).2.halted) := by
  induction lines generalizing s with
  | nil => rfl
  | cons line lines ih =>
    rw [runInput, runInput, printAnswer_halted]
    obtain ⟨_ | ending, s'⟩ := s.printAnswer line
    · exact ih s'
    · rfl

/-- Standard input is answered as if a quit command was not there, up to the setting that the
command changes. -/
theorem runInput_append_quit (hq : isQuit q = true) (before after : List String) (s : Session) :
    (s.runInput (before ++ q :: after)).1 = (s.runInput (before ++ after)).1 ∧
      (s.runInput (before ++ q :: after)).2.halted = (s.runInput (before ++ after)).2.halted := by
  induction before generalizing s with
  | nil =>
    rw [List.nil_append, List.nil_append, runInput, printAnswer_quit hq]
    dsimp only
    rw [runInput_halted]
    exact ⟨rfl, rfl⟩
  | cons line before ih =>
    rw [List.cons_append, List.cons_append, runInput, runInput]
    obtain ⟨_ | ending, s'⟩ := s.printAnswer line
    · exact ih s'
    · exact ⟨rfl, rfl⟩

/-! ## Conversations -/

namespace Conversation

variable {v w : Conversation} {k : Keyboard}

/-- The conversation before the next prompt, unless the keys have ended it. -/
def afterKeys (v : Conversation) : List Keyboard → Option Conversation
  | [] => some v
  | k :: ks =>
    match v.prompt.react k with
    | (some _, _) => none
    | (none, v) => v.afterKeys ks

/-- The text that is handled at a key: a line together with the lines that waited for it, unless
more parentheses are open than closed. -/
def completed? (v : Conversation) : Keyboard → Option String
  | .line line =>
    let text := if v.pending = "" then line else v.pending ++ " " ++ line
    if 0 < openParentheses text then none else some text
  | .interrupt => none
  | .eof => none

/-- A conversation ends with the key that completes the command. -/
theorem react_quit (hk : v.completed? k = some q) (hq : isQuit q = true) :
    v.react k = (some .returned, ⟨v.session.halted, ""⟩) := by
  cases k with
  | line line =>
    simp only [completed?, Option.ite_none_left_eq_some, Option.some.injEq] at hk
    obtain ⟨hopen, rfl⟩ := hk
    simp only [react, enter, if_neg hopen, processLine_quit hq]
    rfl
  | interrupt => cases hk
  | eof => cases hk

/-- A conversation goes through its keys one after the other. -/
theorem resume_append (before after : List Keyboard) (v : Conversation)
    (h : v.afterKeys before = some w) : v.resume (before ++ after) = w.resume after := by
  induction before generalizing v with
  | nil => cases h; rfl
  | cons k before ih =>
    rw [List.cons_append, resume]
    rw [afterKeys] at h
    generalize v.prompt.react k = r at h ⊢
    obtain ⟨_ | ending, v'⟩ := r
    · exact ih v' h
    · cases h

/-- A conversation takes no key after the command. -/
theorem resume_quit (hk : v.completed? k = some q) (hq : isQuit q = true)
    (after : List Keyboard) :
    v.resume (k :: after) = (.returned, v.prompt.session.halted) := by
  rw [resume, react_quit (v := v.prompt) hk hq]

end Conversation

/-! ## All ways to feed a session -/

/-- A quit command ends a script and a conversation, whatever comes after it, and it does not end
standard input. -/
theorem runs_with_quit (s : Session) (hq : isQuit q = true) :
    (∀ path quiet number before after,
      s.runLines path quiet number (before ++ q :: after) =
        s.runLines path quiet number (before ++ [q])) ∧
    (∀ (v w : Conversation) before k after, v.afterKeys before = some w →
      w.completed? k = some q →
      v.resume (before ++ k :: after) = (.returned, w.prompt.session.halted)) ∧
    ∀ before after,
      (s.runInput (before ++ q :: after)).1 = (s.runInput (before ++ after)).1 ∧
        (s.runInput (before ++ q :: after)).2.halted =
          (s.runInput (before ++ after)).2.halted := by
  refine ⟨fun path quiet number before after => ?_, fun v w before k after hw hk => ?_,
    fun before after => runInput_append_quit hq before after s⟩
  · exact runLines_append_quit hq path quiet before after s number
  · rw [Conversation.resume_append before _ v hw]
    exact Conversation.resume_quit hk hq after

/-- A script that ends before it divides by zero, a conversation in which the command is completed
on a second line, and an input of which the last line is answered. -/
theorem runs_with_quit_two_lines :
    isQuit ":quit ( )" = true ∧
    (start false).runLines "a" false 1 (["x=1"] ++ ":quit ( )" :: ["1/0"]) =
      (start false).runLines "a" false 1 (["x=1"] ++ [":quit ( )"]) ∧
    (Conversation.mk (start false) "").resume ([.line ":quit ("] ++ .line ")" :: [.line "1/0"]) =
      (.returned, (((start false).print "symcalc> ").print "...... ").halted) ∧
    ((start false).runInput (["x=1"] ++ ":quit ( )" :: ["x"])).1 =
      ((start false).runInput (["x=1"] ++ ["x"])).1 := by
  have hq : isQuit ":quit ( )" = true := by decide +kernel
  obtain ⟨hscript, hconversation, hinput⟩ := runs_with_quit (start false) hq
  exact ⟨hq, hscript "a" false 1 ["x=1"] ["1/0"],
    hconversation ⟨start false, ""⟩ ⟨(start false).print "symcalc> ", ":quit ("⟩ [.line ":quit ("]
      (.line ")") [.line "1/0"] rfl rfl,
    (hinput ["x=1"] ["x"]).1⟩

/-- The line after a quit command is answered. -/
theorem runInput_goes_on :
    isQuit ":quit\n" = true ∧ ((start false).runInput [":quit\n"]).2.output = "" ∧
      ((start false).runInput [":quit\n", "1+1\n"]).2.output = "2\n" := by
  decide +kernel

end Session

end Reckoner
