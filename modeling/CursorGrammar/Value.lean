import CursorGrammar.Span
import CursorGrammar.Text

set_option autoImplicit false

/-! # Values and matches

What a matcher finds is a match: a value, and the span that it covers. The matches that a compound
matcher collects are part of its value. -/

namespace CursorGrammar

/-- The value of a match. -/
inductive Value where
  | text (content : Text)
  /-- Nothing, where there might have been a match. -/
  | null
  | integer (number : Int)
  | truth (value : Bool)
  | list (items : List Value)
  /-- A match inside another. -/
  | found (value : Value) (span : Span)

/-- A value, and the span of the text that it was found in. -/
structure Match where
  value : Value
  span : Span

namespace Match

/-- The match as part of the value of another. -/
def toValue (m : Match) : Value :=
  .found m.value m.span

end Match

/-- The outcome of an attempt as part of a value. -/
def Value.ofOption : Option Match → Value
  | none => .null
  | some m => m.toValue

/-- The matches in turn, as one value. -/
def Value.ofMatches (ms : List Match) : Value :=
  .list (ms.map Match.toValue)

/-! ## Equality of values

Two values agree if they say the same, where a truth value says the same as the number one or
zero. -/

/-- The number that a value is, if it is one. -/
def Value.number? : Value → Option Int
  | integer number => some number
  | truth value => some (if value then 1 else 0)
  | _ => none

mutual

/-- The values say the same. -/
def Value.agrees : Value → Value → Bool
  | .text a, .text b => a == b
  | .null, .null => true
  | .list items, .list others => Value.agreeAll items others
  | .found value span, .found other otherSpan => Value.agrees value other && span == otherSpan
  | a, b =>
    match a.number?, b.number? with
    | some m, some n => m == n
    | _, _ => false

/-- The lists have the same length, and values at the same place say the same. -/
def Value.agreeAll : List Value → List Value → Bool
  | [], [] => true
  | a :: items, b :: others => Value.agrees a b && Value.agreeAll items others
  | _, _ => false

end

/-- The matches say the same. -/
def Match.agrees (a b : Match) : Bool :=
  a.toValue.agrees b.toValue

end CursorGrammar
