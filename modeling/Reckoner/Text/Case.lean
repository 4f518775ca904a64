import Reckoner.Text.CaseTable

/-!
# Upper-case names and lower-case text

A name is upper case when it has an upper-case character and none of lower or title case; digits and
other characters do not matter. Lowering a text maps each character to its lower-case form. Two
letters are special: a dotted capital I becomes an i and a combining dot, and a capital sigma takes
its final form at the end of a word.
-/

namespace Reckoner.Text

/-- The character is an upper-case letter. -/
def isUpper (c : Char) : Bool :=
  if c.toNat < 128 then c.isUpper else inSpans upperSpans c

/-- The character is a lower-case or title-case letter. -/
def isLower (c : Char) : Bool :=
  if c.toNat < 128 then c.isLower else inSpans lowerSpans c

/-- Some character is upper case and none is lower case. -/
def allUpper (s : String) : Bool :=
  s.toList.any isUpper && !s.toList.any isLower

/-- The character counts as a letter of a word for the choice of the final sigma. -/
def isCased (c : Char) : Bool :=
  (isUpper c || isLower c) && !inSpans transparentSpans c

/-- The next character that is not transparent is a letter. -/
def startsCased (cs : List Char) : Bool :=
  match cs.dropWhile (inSpans transparentSpans) with
  | [] => false
  | c :: _ => isCased c

/-- The lower-case form of a character that does not depend on its neighbours. -/
def lowerChar (c : Char) : List Char :=
  if c.toNat < 128 then [c.toLower]
  else if c = 'İ' then ['i', '\u0307']
  else
    match lowerings.find? (·.span.contains c.toNat) with
    | some l => [Char.ofNat (c.toNat + l.offset).toNat]
    | none => [c]

/-- Lowers `cs`, which the characters `before` precede, nearest first. -/
def lowerFrom (before : List Char) : List Char → List Char
  | [] => []
  | c :: cs =>
    (if c = 'Σ' then
      [if startsCased before && !startsCased cs then 'ς' else 'σ']
    else lowerChar c) ++ lowerFrom (c :: before) cs

/-- The text in lower case. -/
def lower (s : String) : String := String.ofList (lowerFrom [] s.toList)

end Reckoner.Text
