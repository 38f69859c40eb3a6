set_option autoImplicit false

/-! # Marks

A set of numbers below a bound. -/

namespace CursorGrammar

/-- For every number below the bound, whether it is marked. -/
structure Marks where
  flags : Array Bool
  deriving DecidableEq, Repr

namespace Marks

/-- No number below the bound is marked. -/
def none (bound : Nat) : Marks := ⟨.replicate bound false⟩

/-- The number is marked. -/
def contains (marks : Marks) (n : Nat) : Bool :=
  marks.flags.getD n false

/-- Marks one more number. -/
def insert (marks : Marks) (n : Nat) : Marks :=
  ⟨marks.flags.setIfInBounds n true⟩

/-- Marks the numbers of the list. -/
def insertAll (marks : Marks) (numbers : List Nat) : Marks :=
  numbers.foldl insert marks

theorem contains_none (bound n : Nat) : (none bound).contains n = false := by
  simp [none, contains, Array.getD_eq_getD_getElem?, Array.getElem?_replicate]
  split <;> rfl

theorem contains_insert (marks : Marks) (n m : Nat) :
    (marks.insert n).contains m = true ↔
      (m = n ∧ n < marks.flags.size) ∨ marks.contains m = true := by
  simp only [contains, insert, Array.getD_eq_getD_getElem?, Array.getElem?_setIfInBounds]
  split
  next h =>
    subst h
    split
    next hn => simp [hn]
    next hn => simp [hn]
  next h => simp [Ne.symm h]

end Marks

end CursorGrammar
