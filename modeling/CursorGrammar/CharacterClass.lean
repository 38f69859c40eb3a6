import CursorGrammar.Matcher

set_option autoImplicit false

/-! # Classes of characters

Small matchers for one character out of several. -/

namespace CursorGrammar

namespace Matcher

variable {κ : Type}

/-- Any one of the characters, tried in order. -/
def anyOf (characters : Text) : Matcher κ :=
  alt (characters.map fun c => char [c])

/-- Any one of the characters, of which there must be one at least. -/
def oneOf (characters : Text) : Except BuildError (Matcher κ) :=
  if characters = [] then .error .emptyClass else .ok (anyOf characters)

/-- Any decimal digit. -/
def digit : Matcher κ :=
  anyOf ['0', '1', '2', '3', '4', '5', '6', '7', '8', '9']

end Matcher

end CursorGrammar
