/-!
# Tables

A table gives each of its keys one value and remembers the order in which the keys came. `get?` is
its view: `get?_set` and `get?_erase` say what the two operations do to it.
-/

namespace Reckoner

/-- Keys with their values, oldest key first. -/
structure Table (κ α : Type) where
  /-- The keys with their values. -/
  entries : List (κ × α)

namespace Table

variable {κ α : Type} [DecidableEq κ]

/-- The table without keys. -/
def empty : Table κ α := ⟨[]⟩

/-- The value of a key in a list of entries. -/
def find? (key : κ) : List (κ × α) → Option α
  | [] => none
  | (k, a) :: rest => if k = key then some a else find? key rest

/-- Gives a key a value in a list of entries. -/
def assign (key : κ) (value : α) : List (κ × α) → List (κ × α)
  | [] => [(key, value)]
  | (k, a) :: rest => if k = key then (k, value) :: rest else (k, a) :: assign key value rest

/-- The value of a key. -/
def get? (t : Table κ α) (key : κ) : Option α := find? key t.entries

/-- The key has a value. -/
def contains (t : Table κ α) (key : κ) : Bool := (t.get? key).isSome

/-- Gives a key a value; a new key comes last. -/
def set (t : Table κ α) (key : κ) (value : α) : Table κ α := ⟨assign key value t.entries⟩

/-- Removes a key. -/
def erase (t : Table κ α) (key : κ) : Table κ α := ⟨t.entries.filter (·.1 ≠ key)⟩

/-- The entries of a table with names as keys, in the order of the names by code points. -/
def sorted (t : Table String α) : List (String × α) :=
  t.entries.mergeSort fun a b => decide (a.1 ≤ b.1)

/-- The names of a table in order. -/
def names (t : Table String α) : List String := t.sorted.map Prod.fst

@[simp] theorem get?_empty (key : κ) : (empty : Table κ α).get? key = none := rfl

theorem find?_assign (key key' : κ) (value : α) (es : List (κ × α)) :
    find? key' (assign key value es) = if key = key' then some value else find? key' es := by
  induction es with
  | nil => rfl
  | cons e es ih =>
    obtain ⟨k, a⟩ := e
    by_cases h : k = key
    · subst h; by_cases h' : k = key' <;> simp [assign, find?, h']
    · by_cases h' : k = key' <;> simp_all [assign, find?]
      intro h''; exact absurd h''.symm h

/-- Setting a key changes the value of that key alone. -/
theorem get?_set (t : Table κ α) (key key' : κ) (value : α) :
    (t.set key value).get? key' = if key = key' then some value else t.get? key' :=
  find?_assign key key' value t.entries

/-- Erasing a key takes the value of that key alone. -/
theorem get?_erase (t : Table κ α) (key key' : κ) :
    (t.erase key).get? key' = if key = key' then none else t.get? key' := by
  obtain ⟨es⟩ := t
  simp only [erase, get?]
  induction es with
  | nil => simp [find?]
  | cons e es ih =>
    obtain ⟨k, a⟩ := e
    by_cases h : k = key <;> by_cases h' : key = key' <;> simp_all [find?]

end Table

end Reckoner
