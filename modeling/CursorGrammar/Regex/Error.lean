import CursorGrammar.Text

set_option autoImplicit false

/-! # Syntax errors of regular expressions

Each error says what is wrong and names the piece of the expression that is to blame. -/

namespace CursorGrammar

/-- Why a text is no regular expression, with the piece of it that is to blame. -/
inductive SyntaxError where
  /-- A group is never closed. -/
  | missingParenthesis (whole : Text)
  /-- A parenthesis closes no group. -/
  | unexpectedParenthesis (whole : Text)
  /-- A bracket is never closed. -/
  | missingBracket (piece : Text)
  /-- A repetition stands at the beginning of a branch, with nothing to repeat. -/
  | missingArgument (piece : Text)
  /-- A repetition directly follows another. -/
  | stackedRepetition (piece : Text)
  /-- A bound is too large, the bounds are inverted, or nested repetitions multiply too far. -/
  | repetitionSize (piece : Text)
  /-- A question mark after a parenthesis does not go on as any of the known groups do. -/
  | groupForm (piece : Text)
  /-- The name of a group is empty, ill-formed or not closed. -/
  | groupName (piece : Text)
  /-- A backslash precedes something that it does not escape. -/
  | escape (piece : Text)
  /-- A range of a class is inverted, or its named set is unknown. -/
  | classRange (piece : Text)
  /-- The expression ends in a backslash. -/
  | trailingBackslash
  deriving DecidableEq, Repr

namespace SyntaxError

/-- The error in words: what is wrong and, after a colon, the piece to blame. -/
def message : SyntaxError → Text
  | missingParenthesis whole => "missing ): ".toList ++ whole
  | unexpectedParenthesis whole => "unexpected ): ".toList ++ whole
  | missingBracket piece => "missing ]: ".toList ++ piece
  | missingArgument piece => "no argument for repetition operator: ".toList ++ piece
  | stackedRepetition piece => "bad repetition operator: ".toList ++ piece
  | repetitionSize piece => "invalid repetition size: ".toList ++ piece
  | groupForm piece => "invalid perl operator: ".toList ++ piece
  | groupName piece => "invalid named capture group: ".toList ++ piece
  | escape piece => "invalid escape sequence: ".toList ++ piece
  | classRange piece => "invalid character class range: ".toList ++ piece
  | trailingBackslash => "trailing \\".toList

end SyntaxError

end CursorGrammar
