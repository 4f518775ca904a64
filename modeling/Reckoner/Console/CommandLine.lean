import Reckoner.Console.Arguments
import Reckoner.Console.Session

/-!
# The command line

The arguments choose settings, make definitions, and then choose what to run: a script, an
expression, the lines of standard input, or a conversation if the input is a terminal. Everything
here is a function of the arguments and of a `World` that holds the files and the input.
-/

namespace Reckoner

/-- Why a file cannot be read. -/
inductive FileError where
  /-- There is no such file. -/
  | missing
  /-- A part of the path is a file and not a directory. -/
  | notDirectory
  /-- It is a directory. -/
  | isDirectory
  /-- The path or a part of it is too long. -/
  | nameTooLong
  deriving DecidableEq

/-- The error as the system words it. -/
def FileError.message : FileError → String
  | missing => "[Errno 2] No such file or directory"
  | notDirectory => "[Errno 20] Not a directory"
  | isDirectory => "[Errno 21] Is a directory"
  | nameTooLong => "[Errno 36] File name too long"

/-- Files and input. -/
structure World where
  /-- The files by their paths from the working directory. -/
  files : List (String × String)
  /-- What is entered: lines, and interrupts in between. -/
  input : List (Option String)
  /-- The input is a terminal. -/
  terminal : Bool

/-! ## Paths -/

/-- The parts of a path between slashes. -/
def pathParts (path : List Char) : List (List Char) :=
  (path.splitOn '/').filter fun p => p ≠ [] && p ≠ ['.']

/-- How a path starts: two slashes alone are kept, and any other number counts as one. -/
def pathRoot (path : List Char) : List Char :=
  match (path.takeWhile (· = '/')).length with
  | 0 => []
  | 2 => ['/', '/']
  | _ => ['/']

/-- A path without empty parts and parts that lead nowhere. -/
def normalPath (path : String) : String :=
  let parts := pathParts path.toList
  let root := pathRoot path.toList
  if root.isEmpty && parts.isEmpty then "."
  else String.ofList (root ++ ['/'].intercalate parts)

/-- The longest part of a path, in bytes. -/
def maxPartLength : Nat := 255

/-- The longest path, in bytes. -/
def maxPathLength : Nat := 4095

/-- A directory on the way along a path. -/
inductive Place where
  /-- A directory under the working directory, by its path from there. -/
  | inside (directory : List (List Char))
  /-- A directory that holds none of the files. -/
  | elsewhere

/-- The directory above. -/
def Place.parent : Place → Place
  | inside [] => elsewhere
  | inside (d :: ds) => inside (d :: ds).dropLast
  | elsewhere => elsewhere

namespace World

/-- Some file lies in the directory, at any depth. -/
def hasDirectory (w : World) (directory : List (List Char)) : Bool :=
  w.files.any fun f => directory.isPrefixOf (pathParts f.1.toList)

/-- Follows the parts of a path from a directory to the content of a file. -/
def walk (w : World) : Place → List (List Char) → Except FileError String
  | _, [] => .error .isDirectory
  | place, ['.', '.'] :: rest => walk w place.parent rest
  | place, part :: rest =>
    if maxPartLength < (String.ofList part).utf8ByteSize then .error .nameTooLong
    else
      match place with
      | .elsewhere => .error .missing
      | .inside directory =>
        let here := directory ++ [part]
        match w.files.find? fun f => pathParts f.1.toList == here with
        | some f => if rest.isEmpty then .ok f.2 else .error .notDirectory
        | none => if w.hasDirectory here then walk w (.inside here) rest else .error .missing

/-- The content of a file. -/
def readFile (w : World) (path : String) : Except FileError String :=
  if maxPathLength < path.utf8ByteSize then .error .nameTooLong
  else
    let start : Place := if (pathRoot path.toList).isEmpty then .inside [] else .elsewhere
    w.walk start (pathParts path.toList)

/-- The lines of the input before it is interrupted. -/
def lines (w : World) : List String := (w.input.takeWhile Option.isSome).filterMap id

/-- The input is interrupted. -/
def isInterrupted (w : World) : Bool := w.input.any Option.isNone

/-- The keys of a conversation; a line loses the line feed at its end. -/
def keys (w : World) : List Session.Keyboard :=
  w.input.map fun
    | some line => .line (String.ofList (dropFinalNewline line.toList))
    | none => .interrupt

end World

namespace CommandLine

/-! ## Before running -/

/-- A session with the settings that the arguments choose. -/
def configured (a : Arguments) : Session :=
  let s := Session.start a.verbose
  { s with console := { s.console with evaluates := !a.noEval, showsTree := a.tree } }

/-- Makes a definition `name=text`; the session ends if it fails. -/
def define (s : Session) (definition : String) : Option Ending × Session :=
  match Arguments.splitAtEquals definition.toList with
  | (_, none) =>
    (some (.exit 1), s.complain ("Invalid definition (expected NAME=EXPR): " ++ definition))
  | (name, some text) =>
    let name := String.ofList (Text.strip name)
    match s.run (s.console.calculator.define name (String.ofList text)) with
    | (.ok _, s) => (none, s)
    | (.error e, s) =>
      match e.message? with
      | some message =>
        (some (.exit 1), s.complain ("Error defining " ++ name ++ ": " ++ message))
      | none => (some (.failed e), s)

/-- Makes definitions until one fails or is missing. -/
def defineAll (s : Session) : List (Option String) → Option Ending × Session
  | [] => (none, s)
  | none :: _ => (some .missingDefinition, s)
  | some d :: ds =>
    match define s d with
    | (none, s) => defineAll s ds
    | (some ending, s) => (some ending, s)

/-! ## Running -/

/-- What is run after the definitions. -/
inductive Task where
  /-- A script. -/
  | script (path : String)
  /-- An expression. -/
  | expression (text : String)
  /-- The lines of standard input. -/
  | input
  /-- A conversation. -/
  | conversation

/-- The task that the arguments choose; an empty script or expression counts as none. -/
def task (a : Arguments) (terminal : Bool) : Task :=
  match a.script.filter (· ≠ ""), a.expr.filter (· ≠ "") with
  | some path, _ => .script (normalPath path)
  | none, some text => .expression text
  | none, none => if terminal then .conversation else .input

/-- Runs a script, given what reading the file gave. -/
def runFile (s : Session) (path : String) (quiet : Bool) :
    Except FileError String → Ending × Session
  | .ok content => s.runScript path quiet content
  | .error e =>
    (.exit 1, s.complain
      ("Error reading " ++ path ++ ": " ++ e.message ++ ": " ++ Text.quoted path))

/-- Runs the lines of standard input, up to an interrupt if no error comes before it. -/
def runInput (w : World) (s : Session) : Ending × Session :=
  match s.runInput w.lines with
  | (.exit 0, s) => (if w.isInterrupted then .interrupted else .exit 0, s)
  | result => result

/-- Runs a task. No file has a path with a NUL in it. -/
def runTask (w : World) (s : Session) (quiet : Bool) : Task → Ending × Session
  | .script path =>
    if path.toList.contains '\x00' then (.unusablePath, s)
    else runFile s path quiet (w.readFile path)
  | .expression text => s.runExpression text
  | .input => runInput w s
  | .conversation => s.converse w.keys

/-- Runs what the arguments ask for. -/
def run (w : World) (a : Arguments) : Ending × Session :=
  match defineAll (configured a) a.definitions with
  | (some ending, s) => (ending, s)
  | (none, s) => runTask w s a.quiet (task a w.terminal)

/-- The text that shows the version. -/
def versionText : String := "symcalc 0.1.0\n"

/-- What the program comes to: its ending and the session, unless the arguments are rejected. -/
def main? (w : World) (arguments : List String) : Option (Ending × Session) :=
  match Arguments.ofList arguments with
  | .ok a => some (run w a)
  | .error .version => some (.exit 0, (Session.start false).print versionText)
  | .error .help => some (.exit 0, (Session.start false).print helpText)
  | .error .rejected => none

end CommandLine

end Reckoner
