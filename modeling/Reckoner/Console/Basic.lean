import Reckoner.Calculator
import Reckoner.Text.Blank

/-!
# The line processor

A console passes each line to a calculator and answers with text. White space around a line does not
matter, a line that starts with `#` is a comment, and a line that starts with a colon is a command,
which may change the settings of the console. Errors of the calculator become text; faults do not.
-/

namespace Reckoner

/-- A calculator with the settings of a session. -/
structure Console where
  /-- The calculator. -/
  calculator : Calculator
  /-- Lines are evaluated, not just read. -/
  evaluates : Bool
  /-- The outline of each result is shown too. -/
  showsTree : Bool
  /-- The session has not been asked to end. -/
  running : Bool

/-! ## Commands -/

/-- A command of the console. -/
inductive Command where
  /-- Show the help text. -/
  | help
  /-- End the session. -/
  | quit
  /-- List the variables. -/
  | bindings
  /-- List the operators. -/
  | operators
  /-- Remove a variable. -/
  | undefine (name : String)
  /-- Remove all variables. -/
  | clear
  /-- Set or toggle evaluation. -/
  | evaluation (setting : String)
  /-- Set or toggle the outline. -/
  | tree (setting : String)
  /-- A command of another name, in lower case. -/
  | unknown (name : String)
  /-- A colon by itself. -/
  | missing
  deriving DecidableEq

/-- The command of a name in lower case, with the rest of its line. -/
def Command.ofName (name argument : String) : Command :=
  match name with
  | "help" => .help
  | "quit" => .quit
  | "exit" => .quit
  | "q" => .quit
  | "vars" => .bindings
  | "operators" => .operators
  | "undefine" => .undefine argument
  | "clear" => .clear
  | "eval" => .evaluation argument
  | "tree" => .tree argument
  | name => .unknown name

/-- The command of a line, from after the colon. -/
def Command.ofChars (cs : List Char) : Command :=
  match Text.firstWord? cs with
  | some (name, argument) =>
    .ofName (Text.lower (String.ofList name)) (String.ofList argument)
  | none => .missing

/-- The text that explains the commands. -/
def helpText : String :=
  "symcalc REPL Commands:\n" ++
  "  :help              Show this help\n" ++
  "  :vars              List defined variables\n" ++
  "  :operators         List registered operators\n" ++
  "  :undefine NAME     Remove a variable\n" ++
  "  :clear             Remove all variables\n" ++
  "  :eval on|off       Toggle evaluation (off shows the parsed expression)\n" ++
  "  :tree on|off       Toggle structural tree output\n" ++
  "  :quit              Exit\n" ++
  "\n" ++
  "Syntax:\n" ++
  "  x^2*3 + 1/(y-2)        Evaluate an expression\n" ++
  "  y = x + 1              Define a variable\n" ++
  "  ADD(x, 1)              Call an operator by name\n"

/-- A setting after a command: on, off, or else the opposite of what it is now. -/
def toggled (current : Bool) (setting : String) : Bool :=
  let s := Text.lower setting
  if s ∈ ["on", "true", "1"] then true
  else if s ∈ ["off", "false", "0"] then false
  else !current

/-- A variable with its value, as it is listed. -/
def variableLine (entry : String × Expr) : Calculation String := do
  let text ← Calculation.ofExcept .ofText entry.2.render
  return entry.1 ++ " = " ++ text

namespace Console

/-- A console at the start of a session. -/
def start (c : Calculator) : Console :=
  { calculator := c, evaluates := true, showsTree := false, running := true }

/-- The answer to a list of variables. -/
def variablesAnswer (c : Console) : Calculation String := do
  let vs ← c.calculator.bindings
  if vs.isEmpty then return "No variables defined"
  else return "\n".intercalate (← vs.mapM variableLine)

/-- The answer to the removal of a variable. -/
def undefineAnswer (c : Console) (name : String) : Calculation String := do
  if name = "" then return "Usage: :undefine NAME"
  else if ← c.calculator.undefine name then return "Undefined " ++ name
  else return "Unknown variable: " ++ name

/-- Carries out a command. -/
def perform (c : Console) : Command → Calculation (Option String × Console)
  | .help => return (some helpText, c)
  | .quit => return (none, { c with running := false })
  | .bindings => return (some (← c.variablesAnswer), c)
  | .operators => do
    return (some ("Operators: " ++ ", ".intercalate (← c.calculator.operatorNames)), c)
  | .undefine name => return (some (← c.undefineAnswer name), c)
  | .clear => do
    c.calculator.clear
    return (some "Cleared all variables", c)
  | .evaluation setting =>
    let on := toggled c.evaluates setting
    return (some (if on then "Evaluation enabled" else "Evaluation disabled"),
      { c with evaluates := on })
  | .tree setting =>
    let on := toggled c.showsTree setting
    return (some (if on then "Tree output enabled" else "Tree output disabled"),
      { c with showsTree := on })
  | .unknown name =>
    return (some ("Unknown command: " ++ name ++ ". Type :help for help."), c)
  | .missing => return (some "Unknown command. Type :help for help.", c)

/-- Carries out a line that starts with a colon. -/
def handleCommand (c : Console) (line : String) : Calculation (Option String × Console) :=
  c.perform (.ofChars (line.toList.drop 1))

/-! ## Lines -/

/-- A result and its text. -/
def result (c : Console) (text : String) : Calculation (Expr × String) := do
  let e ← c.calculator.read text
  let e ← if c.evaluates then c.calculator.evaluate e else pure e
  return (e, ← c.calculator.render e)

/-- The answer to an expression, or the message of the error. -/
def answer (c : Console) (text : String) : Calculation String := do
  match ← (c.result text).reported with
  | .error message => return "Error: " ++ message
  | .ok (e, shown) =>
    if c.showsTree then
      let outline ← Calculation.ofExcept .ofText (e.outline? Expr.outlineIndent)
      return shown ++ "\n" ++ outline
    else return shown

/-- The answer to a line, if it has one, and the settings after it. -/
def processLine (c : Console) (line : String) : Calculation (Option String × Console) :=
  match Text.strip line.toList with
  | [] => return (none, c)
  | '#' :: _ => return (none, c)
  | ':' :: cs => c.perform (.ofChars cs)
  | cs => do return (some (← c.answer (String.ofList cs)), c)

end Console

end Reckoner
