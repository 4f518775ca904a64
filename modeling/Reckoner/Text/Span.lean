/-!
# Sets of characters as spans

A class of characters is given by spans of code points. Inside a span every `step`-th code point
belongs to the class, which keeps the tables of alternating capital and small letters short.
-/

namespace Reckoner.Text

/-- The code points `first, first + step, …` up to `last`. -/
structure Span where
  /-- The lowest code point. -/
  first : Nat
  /-- The highest code point. -/
  last : Nat
  /-- The distance of neighbours. -/
  step : Nat

/-- The code point lies in the span. -/
def Span.contains (s : Span) (n : Nat) : Bool :=
  s.first ≤ n && n ≤ s.last && (n - s.first) % s.step == 0

/-- The character lies in one of the spans. -/
def inSpans (spans : List Span) (c : Char) : Bool :=
  spans.any (·.contains c.toNat)

end Reckoner.Text
