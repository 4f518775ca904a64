import Reckoner.Console.CommandLine

/-!
# The program

The outer layer: it reads files and input, prints, and leaves every decision to the session.
-/

namespace Reckoner.Program

/-- Prints what a session has printed since it was last shown. -/
def flush (s : Session) : IO Session := do
  let stdout ← IO.getStdout
  let stderr ← IO.getStderr
  for p in s.printed.reverse do
    match p with
    | .out text => stdout.putStr text
    | .err text => stderr.putStr text
  stdout.flush
  return { s with printed := [] }

/-- The lines of the input that are left. -/
partial def inputLines (stream : IO.FS.Stream) : IO (List String) := do
  let line ← stream.getLine
  if line.isEmpty then return [] else return line :: (← inputLines stream)

/-- The rest of a conversation with a terminal. -/
partial def talk (stream : IO.FS.Stream) (v : Session.Conversation) : IO (Ending × Session) := do
  let v := v.prompt
  let v : Session.Conversation := { v with session := ← flush v.session }
  let line ← stream.getLine
  let key : Session.Keyboard :=
    if line.isEmpty then .eof else .line (String.ofList (dropFinalNewline line.toList))
  match v.react key with
  | (some ending, v) => return (ending, v.session)
  | (none, v) => talk stream v

/-- Runs a task on real files and input. -/
def perform (s : Session) (quiet : Bool) : CommandLine.Task → IO (Ending × Session)
  | .script path => do
    let content ← (IO.FS.readFile path).toBaseIO
    return CommandLine.runFile s path quiet (content.mapError fun _ => .missing)
  | .expression text => return s.runExpression text
  | .input => return s.runInput (← inputLines (← IO.getStdin))
  | .conversation => do talk (← IO.getStdin) (Session.Conversation.greet s)

/-- Runs what the arguments ask for. -/
def start (a : Arguments) : IO (Ending × Session) := do
  match CommandLine.defineAll (CommandLine.configured a) a.definitions with
  | (some ending, s) => return (ending, s)
  | (none, s) => perform s a.quiet (CommandLine.task a (← (← IO.getStdin).isTty))

/-- The exit status of an ending. -/
def status : Ending → UInt32
  | .exit n => n.toUInt32
  | .returned => 0
  | .failed _ => 1
  | .unusablePath => 1
  | .interrupted => 130
  | .missingDefinition => 1

end Reckoner.Program

open Reckoner Reckoner.Program in
/-- The program. -/
def main (arguments : List String) : IO UInt32 := do
  match Arguments.ofList arguments with
  | .error .version => IO.print CommandLine.versionText; return 0
  | .error .help => IO.print helpText; return 0
  | .error .rejected => return 2
  | .ok a => do
    let (ending, s) ← start a
    let _ ← flush s
    return status ending
