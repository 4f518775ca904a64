import Reckoner.Console.Basic

/-!
# Completion

What a word at the end of a line may be completed to: settings after the commands that take one,
variables after the command that removes one, commands, and otherwise operators and variables.
-/

namespace Reckoner

/-- The commands, in the order in which they are offered. -/
def commandWords : List String :=
  [":help", ":quit", ":exit", ":q", ":vars", ":operators", ":undefine", ":clear", ":eval", ":tree"]

/-- The text starts with the other one. -/
def startsWith (s start : String) : Bool := start.toList.isPrefixOf s.toList

/-- The completions of `word` in `line`, given the names of operators and variables in order. -/
def completionsFrom (operators bindings : List String) (word line : String) : List String :=
  let line := String.ofList (Text.stripStart line.toList)
  let offered (ss : List String) : List String := ss.filter (startsWith · word)
  if startsWith line ":eval " || startsWith line ":tree " then offered ["on", "off"]
  else if startsWith line ":undefine " then offered bindings
  else if startsWith word ":" || (startsWith line ":" && !line.toList.contains ' ') then
    offered commandWords
  else if word = "" then []
  else offered (operators ++ bindings)

/-- The completions of `word` in `line` for a console. -/
def Console.completions (c : Console) (word line : String) : Calculation (List String) := do
  let operators ← c.calculator.operatorNames
  let bindings ← c.calculator.bindings
  return completionsFrom operators (bindings.map Prod.fst) word line

/-- The completion of a number; numbers below zero count from the end. -/
def completionAt (matched : List String) (i : Int) : Option String :=
  if i < 0 then
    let n := (-i).toNat
    if n ≤ matched.length then matched[matched.length - n]? else none
  else matched[i.toNat]?

/-- The answers to a sequence of questions for the completion of a number. The first one, of number
zero, looks the word up, with nothing before it on the line; later ones use what it found. -/
def Console.completionSequence (c : Console) (word : String) (matched : List String) :
    List Int → Calculation (List (Option String))
  | [] => return []
  | i :: is => do
    let matched ← if i = 0 then c.completions word "" else pure matched
    return completionAt matched i :: (← c.completionSequence word matched is)

end Reckoner
