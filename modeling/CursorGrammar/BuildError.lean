import CursorGrammar.Regex.Error
import CursorGrammar.Text.Quoted

set_option autoImplicit false

/-! # Errors in making a matcher

A matcher is checked when it is made, so that a run of it meets none of these errors. -/

namespace CursorGrammar

/-- The number of characters that the fragment of a pattern may have. -/
def patternLimit : Nat := 4096

/-- Why a matcher cannot be made. -/
inductive BuildError where
  /-- A class of characters has no members. -/
  | emptyClass
  /-- The fragment of a pattern has more characters than allowed. -/
  | patternTooLong (length : Nat)
  /-- The fragment of a pattern is no regular expression. -/
  | badPattern (fragment : Text) (error : SyntaxError)
  deriving DecidableEq, Repr

/-- The reason that is given for a bad pattern: the bytes of the error's message. -/
def SyntaxError.reason (error : SyntaxError) : Text :=
  error.message.quotedBytes

/-- The error in words. -/
def BuildError.message : BuildError → Text
  | emptyClass => "one_of requires at least one character".toList
  | patternTooLong length =>
    "pattern length ".toList ++ decimal length ++ " exceeds maximum ".toList ++
      decimal patternLimit
  | badPattern fragment error =>
    "invalid pattern ".toList ++ fragment.quoted ++ ':' :: ' ' :: error.reason

end CursorGrammar
