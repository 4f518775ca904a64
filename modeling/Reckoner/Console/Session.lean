import Reckoner.Console.Basic

/-!
# Sessions

A session feeds lines to a console and prints the answers: the lines of a script, a single
expression, the lines of standard input, or what a person types. A script, an expression and
standard input end with a status, which is one after an error. An error is recognized by how the
answer starts.

What is printed goes to one of two channels. In a verbose session the lines of the log go to the
error channel as they arise.
-/

namespace Reckoner

/-- Something printed. -/
inductive Printed where
  /-- To standard output. -/
  | out (text : String)
  /-- To standard error. -/
  | err (text : String)

/-- A session in progress. -/
structure Session where
  /-- The registries. -/
  stores : Stores
  /-- The console. -/
  console : Console
  /-- The log is printed. -/
  verbose : Bool
  /-- What was printed, the latest first. -/
  printed : List Printed

/-- How a session ends. -/
inductive Ending where
  /-- With a status. -/
  | exit (status : Nat)
  /-- Without a status, after a conversation. -/
  | returned
  /-- With a failure that nothing reports. -/
  | failed (e : CalculationError)
  /-- With a path that no file can have, which nothing reports. -/
  | unusablePath
  /-- By an interrupt outside a conversation. -/
  | interrupted
  /-- With a definition that is missing its text, which nothing reports either. -/
  | missingDefinition

namespace Session

/-- A session that has not printed anything. -/
def start (verbose : Bool) : Session :=
  { stores := .fresh, console := .start ⟨0⟩, verbose := verbose, printed := [] }

/-- Prints to standard output. -/
def print (s : Session) (text : String) : Session := { s with printed := .out text :: s.printed }

/-- Prints a line to standard output. -/
def printLine (s : Session) (text : String) : Session := s.print (text ++ "\n")

/-- Prints a line to standard error. -/
def complain (s : Session) (text : String) : Session :=
  { s with printed := .err (text ++ "\n") :: s.printed }

/-- Runs a calculation on the registries of the session, and prints the log if that is asked for. -/
def run {α : Type} (s : Session) (x : Calculation α) : Except CalculationError α × Session :=
  let o := x s.stores
  let s := { s with stores := o.stores }
  (o.value, if s.verbose then o.trace.lines.foldl complain s else s)

/-- Runs a calculation that may change the settings. -/
def runConsole (s : Session) (x : Calculation (Option String × Console)) :
    Except CalculationError (Option String) × Session :=
  match s.run x with
  | (.ok (answer, c), s) => (.ok answer, { s with console := c })
  | (.error e, s) => (.error e, s)

/-- The answer to a line. -/
def processLine (s : Session) (line : String) :
    Except CalculationError (Option String) × Session :=
  s.runConsole (s.console.processLine line)

/-- The answer to a command line. -/
def handleCommand (s : Session) (line : String) :
    Except CalculationError (Option String) × Session :=
  s.runConsole (s.console.handleCommand line)

/-- The text of an answer, if there is any. -/
def shown (answer : Option String) : String := answer.getD ""

/-- The answer is an error, by how it starts. -/
def isError (answer : String) : Bool := "Error".toList.isPrefixOf answer.toList

/-- The answer is about an unknown command, by how it starts. -/
def isUnknownCommand (answer : String) : Bool :=
  "Unknown command".toList.isPrefixOf answer.toList

/-! ## Scripts -/

/-- Runs the lines of a script, which are counted from `number`. Empty lines and comments are
skipped, the answers to commands are not printed, and an error or an unknown command ends the
script. -/
def runLines (path : String) (quiet : Bool) (s : Session) (number : Nat) :
    List String → Ending × Session
  | [] => (.exit 0, s)
  | line :: rest =>
    let fault (answer : String) := path ++ ":" ++ toString number ++ ": " ++ answer
    match Text.strip line.toList with
    | [] => runLines path quiet s (number + 1) rest
    | '#' :: _ => runLines path quiet s (number + 1) rest
    | ':' :: cs =>
      match s.handleCommand (String.ofList (':' :: cs)) with
      | (.error e, s) => (.failed e, s)
      | (.ok answer, s) =>
        if isUnknownCommand (shown answer) then (.exit 1, s.complain (fault (shown answer)))
        else if s.console.running then runLines path quiet s (number + 1) rest
        else (.exit 0, s)
    | cs =>
      match s.processLine (String.ofList cs) with
      | (.error e, s) => (.failed e, s)
      | (.ok answer, s) =>
        if isError (shown answer) then (.exit 1, s.complain (fault (shown answer)))
        else
          let s := if shown answer = "" || quiet then s else s.printLine (shown answer)
          runLines path quiet s (number + 1) rest

/-- Runs a script. -/
def runScript (s : Session) (path : String) (quiet : Bool) (content : String) :
    Ending × Session :=
  s.runLines path quiet 1 (Text.lines content)

/-! ## Expressions and standard input -/

/-- Prints the answer to a line; an error ends the session. -/
def printAnswer (s : Session) (line : String) : Option Ending × Session :=
  match s.processLine line with
  | (.error e, s) => (some (.failed e), s)
  | (.ok answer, s) =>
    if shown answer = "" then (none, s)
    else if isError (shown answer) then (some (.exit 1), s.complain (shown answer))
    else (none, s.printLine (shown answer))

/-- Runs a single expression. -/
def runExpression (s : Session) (text : String) : Ending × Session :=
  match s.printAnswer text with
  | (some ending, s) => (ending, s)
  | (none, s) => (.exit 0, s)

/-- Runs the lines of standard input. -/
def runInput (s : Session) : List String → Ending × Session
  | [] => (.exit 0, s)
  | line :: rest =>
    match s.printAnswer line with
    | (some ending, s) => (ending, s)
    | (none, s) => s.runInput rest

/-! ## Conversations -/

/-- Opening minus closing parentheses. -/
def openParentheses (s : String) : Int :=
  s.toList.foldl (fun n c => if c = '(' then n + 1 else if c = ')' then n - 1 else n) 0

/-- A conversation: a session with the lines that wait for a closing parenthesis. -/
structure Conversation where
  /-- The session. -/
  session : Session
  /-- What has been typed of an expression that is not complete. -/
  pending : String

/-- What a person does at the prompt. -/
inductive Keyboard where
  /-- A line is entered. -/
  | line (text : String)
  /-- The line is interrupted. -/
  | interrupt
  /-- The input ends. -/
  | eof

namespace Conversation

/-- The words at the start of a conversation. -/
def greet (s : Session) : Conversation :=
  ⟨s.print ("symcalc 0.1.0 - symbolic calculator\n" ++
    "Type :help for help, :quit to exit\n\n"), ""⟩

/-- Prints the prompt. -/
def prompt (v : Conversation) : Conversation :=
  { v with session := v.session.print (if v.pending = "" then "symcalc> " else "...... ") }

/-- Enters a line. It waits while more parentheses are open than closed. -/
def enter (v : Conversation) (line : String) : Option Ending × Conversation :=
  let text := if v.pending = "" then line else v.pending ++ " " ++ line
  if 0 < openParentheses text then (none, { v with pending := text })
  else
    match v.session.processLine text with
    | (.error e, s) => (some (.failed e), ⟨s, ""⟩)
    | (.ok answer, s) =>
      let s := if shown answer = "" then s else s.printLine (shown answer)
      (if s.console.running then none else some .returned, ⟨s, ""⟩)

/-- What follows from what is done at the prompt. -/
def react (v : Conversation) : Keyboard → Option Ending × Conversation
  | .line text => v.enter text
  | .interrupt =>
    if v.pending = "" then (none, { v with session := v.session.printLine "" })
    else (none, ⟨v.session.printLine "\nInput cancelled", ""⟩)
  | .eof => (some .returned, { v with session := v.session.printLine "" })

/-- The rest of a conversation; the input ends after the last key. -/
def resume (v : Conversation) : List Keyboard → Ending × Session
  | [] => (.returned, (v.prompt.react .eof).2.session)
  | k :: ks =>
    match v.prompt.react k with
    | (some ending, v) => (ending, v.session)
    | (none, v) => v.resume ks

end Conversation

/-- A whole conversation. -/
def converse (s : Session) (keys : List Keyboard) : Ending × Session :=
  if s.console.running then (Conversation.greet s).resume keys
  else (.returned, (Conversation.greet s).session)

/-! ## What was printed -/

/-- Everything printed to standard output. -/
def output (s : Session) : String :=
  String.join (s.printed.reverse.filterMap fun
    | .out text => some text
    | .err _ => none)

/-- Everything printed to standard error. -/
def errors (s : Session) : String :=
  String.join (s.printed.reverse.filterMap fun
    | .err text => some text
    | .out _ => none)

end Session

end Reckoner
