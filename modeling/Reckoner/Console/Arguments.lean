import Reckoner.Registry
import Reckoner.Text.Digit

/-!
# Arguments of the command line

Arguments are options, values of options, the name of a script, or the mark `--` that ends the
options. Long options may be shortened while only one option starts that way and may carry their
value after an equals sign; short ones may be written together, the last of them with its value
attached. What starts with a dash is still a value if it is a dash alone, a negative number, or
contains a space and starts no known option. The mark `--` is never the value of an option: where it
is attached to one, the option is there without a value.

The arguments are first sorted into those classes, and an ambiguous option is refused at once. Then
they are consumed in order, so an option that ends the program, such as the one for the version,
takes effect unless something before it was refused.
-/

namespace Reckoner

/-- An option, by what it does. -/
inductive Flag where
  /-- Show the help. -/
  | help
  /-- Evaluate an expression. -/
  | expr
  /-- Define a variable first. -/
  | define
  /-- Do not evaluate. -/
  | noEval
  /-- Show outlines. -/
  | tree
  /-- Do not print the results of a script. -/
  | quiet
  /-- Print the log. -/
  | verbose
  /-- Show the version. -/
  | version
  deriving DecidableEq

/-- The spellings of the options. -/
def Flag.spellings : List (String × Flag) :=
  [("-h", .help), ("--help", .help), ("-e", .expr), ("--expr", .expr), ("-D", .define),
    ("--define", .define), ("--no-eval", .noEval), ("--tree", .tree), ("-q", .quiet),
    ("--quiet", .quiet), ("-v", .verbose), ("--verbose", .verbose), ("--version", .version)]

/-- The option of a spelling. -/
def Flag.ofSpelling? (s : String) : Option Flag :=
  (spellings.find? (·.1 == s)).map Prod.snd

/-- The option needs a value. -/
def Flag.takesValue (f : Flag) : Bool := f == .expr || f == .define

/-- What the arguments ask for. -/
structure Arguments where
  /-- The script to run. -/
  script : Option String
  /-- The expression to evaluate. -/
  expr : Option String
  /-- The definitions to make first; one may be missing its text. -/
  definitions : List (Option String)
  /-- Expressions are not evaluated. -/
  noEval : Bool
  /-- Outlines are shown. -/
  tree : Bool
  /-- The results of a script are not printed. -/
  quiet : Bool
  /-- The log is printed. -/
  verbose : Bool

namespace Arguments

/-- Nothing is asked for. -/
def empty : Arguments :=
  { script := none, expr := none, definitions := [], noEval := false, tree := false,
    quiet := false, verbose := false }

/-- Why the arguments are not used. -/
inductive Stop where
  /-- The help is asked for. -/
  | help
  /-- The version is asked for. -/
  | version
  /-- They are not understood. -/
  | rejected
  deriving DecidableEq

/-! ## Sorting -/

/-- An argument, sorted. -/
inductive Sorted where
  /-- A value or the name of a script. -/
  | plain (text : String)
  /-- The mark after which no options follow. -/
  | finish
  /-- An option, whether it was written with a single dash, and what is attached to it. -/
  | option (flag : Flag) (short : Bool) (attached : Option (List Char))
  /-- Something that looks like an option and is none. -/
  | unknown
  /-- The start of several options. -/
  | ambiguous

/-- The text before the first equals sign, and what follows it. -/
def splitAtEquals (cs : List Char) : List Char × Option (List Char) :=
  (cs.takeWhile (· ≠ '='),
    match cs.dropWhile (· ≠ '=') with
    | [] => none
    | _ :: rest => some rest)

/-- Decimal digits of any script, and at least one of them. -/
def allDigits (cs : List Char) : Bool := !cs.isEmpty && cs.all Text.isDecimalDigit

/-- A dash and a decimal numeral, in digits of any script; one line feed may follow. -/
def isNegativeNumeral (cs : List Char) : Bool :=
  match dropFinalNewline cs with
  | '-' :: ds =>
    allDigits ds ||
      match ds.dropWhile Text.isDecimalDigit with
      | '.' :: rest => allDigits rest
      | _ => false
  | _ => false

/-- An argument that starts like no option: a negative numeral or a text with a space is a value. -/
def sortUnmatched (s : String) : Sorted :=
  if isNegativeNumeral s.toList || s.toList.contains ' ' then .plain s else .unknown

/-- An argument that starts with two dashes and is not an option's full name. -/
def sortLong (s : String) : Sorted :=
  let (start, attached) := splitAtEquals s.toList
  match Flag.spellings.filter fun p => start.isPrefixOf p.1.toList with
  | [] => sortUnmatched s
  | [(_, flag)] => .option flag false attached
  | _ => .ambiguous

/-- An argument that starts with one dash and is not an option's full name. -/
def sortShort (s : String) : Sorted :=
  match Flag.ofSpelling? (String.ofList (s.toList.take 2)) with
  | some flag => .option flag true (some (s.toList.drop 2))
  | none => sortUnmatched s

/-- Sorts an argument that does not follow the mark `--`. -/
def sort (s : String) : Sorted :=
  match s.toList with
  | '-' :: second :: rest =>
    if second :: rest = ['-'] then .finish
    else
      match Flag.ofSpelling? s with
      | some flag => .option flag (second ≠ '-') none
      | none =>
        let (name, attached) := splitAtEquals s.toList
        match Flag.ofSpelling? (String.ofList name), attached with
        | some flag, some value => .option flag (second ≠ '-') (some value)
        | _, _ => if second = '-' then sortLong s else sortShort s
  | _ => .plain s

/-- Sorts all arguments. -/
def sortAll : List String → List Sorted
  | [] => []
  | s :: rest =>
    match sort s with
    | .finish => .finish :: rest.map .plain
    | sorted => sorted :: sortAll rest

/-! ## Consuming -/

/-- What has been understood so far. -/
structure Progress where
  /-- The settings. -/
  arguments : Arguments
  /-- The place of the script has been taken, or given up. -/
  scriptTaken : Bool
  /-- Some argument was not understood. -/
  extra : Bool

/-- Takes an option without a value. -/
def takeFlag (p : Progress) : Flag → Except Stop Progress
  | .help => .error .help
  | .version => .error .version
  | .noEval => .ok { p with arguments := { p.arguments with noEval := true } }
  | .tree => .ok { p with arguments := { p.arguments with tree := true } }
  | .quiet => .ok { p with arguments := { p.arguments with quiet := true } }
  | .verbose => .ok { p with arguments := { p.arguments with verbose := true } }
  | .expr => .error .rejected
  | .define => .error .rejected

/-- The value that a text is for an option: the mark that ends the options is none. -/
def optionValue (text : String) : Option String := if text = "--" then none else some text

/-- Takes an option with the text of its value. -/
def takeValue (p : Progress) (f : Flag) (text : String) : Except Stop Progress :=
  let a := p.arguments
  match f with
  | .expr => .ok { p with arguments := { a with expr := optionValue text } }
  | .define =>
    .ok { p with arguments := { a with definitions := a.definitions ++ [optionValue text] } }
  | _ => .error .rejected

/-- Takes the options of an argument one by one. -/
def takeFlags (p : Progress) : List Flag → Except Stop Progress
  | [] => .ok p
  | f :: fs => do takeFlags (← takeFlag p f) fs

/-- What an argument with options comes to. -/
inductive Group where
  /-- Options without values. -/
  | flags (fs : List Flag)
  /-- Options without values, and one with its value. -/
  | valued (fs : List Flag) (f : Flag) (value : String)
  /-- Options without values, and one of which the value is the next argument. -/
  | awaiting (fs : List Flag) (f : Flag)
  /-- Something that cannot be. -/
  | rejected

/-- Takes apart short options that are written together; `flag` comes first, `attached` follows it,
and `before` are the options before it. What follows an option that takes a value is its value, and
what follows any other has to start with the letter of one. -/
def openGroup (before : List Flag) (flag : Flag) (attached : List Char) : Group :=
  if flag.takesValue then .valued before flag (String.ofList attached)
  else
    match attached with
    | [] => .rejected
    | c :: cs =>
      match Flag.ofSpelling? (String.ofList ['-', c]), cs with
      | none, _ => .rejected
      | some next, [] =>
        if next.takesValue then .awaiting (before ++ [flag]) next
        else .flags (before ++ [flag, next])
      | some next, c :: cs => openGroup (before ++ [flag]) next (c :: cs)

/-- What an option and the text attached to it come to. -/
def group (flag : Flag) (short : Bool) : Option (List Char) → Group
  | none => if flag.takesValue then .awaiting [] flag else .flags [flag]
  | some attached =>
    if short then openGroup [] flag attached
    else if flag.takesValue then .valued [] flag (String.ofList attached)
    else .rejected

/-- Takes a plain argument, which can only be the script. -/
def takePlain (p : Progress) (text : String) : Progress :=
  if p.scriptTaken then { p with extra := true }
  else { p with scriptTaken := true, arguments := { p.arguments with script := some text } }

/-- Takes what follows the last option: at most the script, and around it the mark that ends the
options. -/
def takeLast (p : Progress) (rest : List Sorted) : Progress :=
  if p.scriptTaken then { p with extra := p.extra || !rest.isEmpty }
  else
    match rest with
    | [] => p
    | [.finish] => p
    | [.plain s] => takePlain p s
    | [.finish, .plain s] => takePlain p s
    | [.plain s, .finish] => takePlain p s
    | _ => { p with extra := true }

/-- An option is still to come. -/
def hasOption (rest : List Sorted) : Bool :=
  rest.any fun
    | .option _ _ _ => true
    | .unknown => true
    | _ => false

/-- Consumes sorted arguments from left to right. -/
def consume (p : Progress) : List Sorted → Except Stop Progress
  | [] => .ok p
  | .option flag short attached :: rest =>
    match group flag short attached with
    | .flags fs => do consume (← takeFlags p fs) rest
    | .valued fs f value => do consume (← takeValue (← takeFlags p fs) f value) rest
    | .awaiting fs f =>
      match rest with
      | .plain value :: rest => do consume (← takeValue (← takeFlags p fs) f value) rest
      | _ => .error .rejected
    | .rejected => .error .rejected
  | .unknown :: rest => consume { p with extra := true } rest
  | sorted :: rest =>
    if hasOption rest then
      match sorted with
      | .plain text => consume (takePlain p text) rest
      | _ => consume p rest
    else .ok (takeLast p (sorted :: rest))

/-- Reads the arguments. -/
def ofList (arguments : List String) : Except Stop Arguments := do
  let sorted := sortAll arguments
  if sorted.any (fun | .ambiguous => true | _ => false) then .error .rejected
  let p ← consume ⟨empty, false, false⟩ sorted
  if p.extra then .error .rejected else return p.arguments

end Arguments

end Reckoner
