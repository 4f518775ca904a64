import Reckoner.Number.Binary64

/-!
# Sums and products of literals

Two literals of the same kind add and multiply within that kind, except that an exact result which
is whole becomes an integer. Literals of different kinds are first brought to a common kind by
`promote?`: a double makes both doubles, otherwise both become ratios.
-/

namespace Reckoner.Number

/-- The literals are of the same kind. -/
def sameKind (a b : Number) : Bool :=
  match a.plain, b.plain with
  | .integer _, .integer _ => true
  | .double _, .double _ => true
  | .fraction _, .fraction _ => true
  | _, _ => false

/-- An exact number as a ratio. -/
def toFraction? (a : Number) : Option Number := a.toRat?.map .fraction

/-- Two literals as literals of one kind: doubles if either is a double, otherwise ratios. There
is no answer when an exact number is beyond the finite doubles. -/
def promote? (a b : Number) : Option (Number × Number) :=
  match a.toRat?, b.toRat? with
  | some p, some q => some (.fraction p, .fraction q)
  | _, _ => do return (.double (← a.toFloat?), .double (← b.toFloat?))

/-- The sum of two literals of one kind. -/
def addAlike? (a b : Number) : Option Number :=
  match a.plain, b.plain with
  | .integer m, .integer n => some (.integer (m + n))
  | .double x, .double y => some (.double (x + y))
  | .fraction p, .fraction q => some (ofRat (p + q))
  | _, _ => none

/-- The product of two literals of one kind. -/
def mulAlike? (a b : Number) : Option Number :=
  match a.plain, b.plain with
  | .integer m, .integer n => some (.integer (m * n))
  | .double x, .double y => some (.double (x * y))
  | .fraction p, .fraction q => some (ofRat (p * q))
  | _, _ => none

/-- The literals that a promotion gives are of one kind. -/
theorem sameKind_of_promote? {a b : Number} {r : Number × Number} (h : a.promote? b = some r) :
    r.1.sameKind r.2 = true := by
  unfold promote? at h
  split at h
  · cases h; rfl
  · cases hx : a.toFloat? <;> cases hy : b.toFloat? <;> simp_all
    subst h; rfl

/-- A sum has an answer exactly for literals of one kind. -/
theorem isSome_addAlike? (a b : Number) : (a.addAlike? b).isSome = a.sameKind b := by
  cases a <;> cases b <;> rfl

/-- A product has an answer exactly for literals of one kind. -/
theorem isSome_mulAlike? (a b : Number) : (a.mulAlike? b).isSome = a.sameKind b := by
  cases a <;> cases b <;> rfl

end Reckoner.Number
