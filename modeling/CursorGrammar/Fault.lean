import CursorGrammar.Text.Quoted

set_option autoImplicit false

/-! # Faults

A fault ends a run for good, unlike a failure to match, which a matcher may answer by trying
something else. -/

namespace CursorGrammar

/-- What can go wrong while a matcher runs, or when a match or a feed is made. -/
inductive Fault where
  /-- The bounds of a match do not make a span. -/
  | badSpan (start stop : Int)
  /-- A feed is to begin outside its text. -/
  | cursorOutside (cursor : Int) (length : Nat)
  /-- A rule is called that the grammar does not have. -/
  | unknownRule (name : Text)
  /-- A user's matcher gives up with a message of its own. -/
  | raised (message : Text)
  deriving DecidableEq, Repr

/-- The fault in words. -/
def Fault.message : Fault → Text
  | badSpan start stop =>
    "invalid match span [".toList ++ decimal start ++ ", ".toList ++ decimal stop ++ ")".toList
  | cursorOutside cursor length =>
    "cursor ".toList ++ decimal cursor ++ " out of range for input of length ".toList ++
      decimal length
  | unknownRule name => name.quoted
  | raised message => message

end CursorGrammar
