import CursorGrammar.Text.Quoted
import CursorGrammar.Value

set_option autoImplicit false

/-! # Printed values

The form in which values and matches are shown. -/

namespace CursorGrammar

/-- The items with a comma and a space between any two. -/
def commaSeparated : List Text → Text
  | [] => []
  | [item] => item
  | item :: rest => item ++ ',' :: ' ' :: commaSeparated rest

/-- A name, and fields in parentheses, each with its own name. -/
def printRecord (name : Text) (fields : List (Text × Text)) : Text :=
  name ++ '(' :: commaSeparated (fields.map fun field => field.1 ++ '=' :: field.2) ++ [')']

mutual

/-- The printed form of a value. -/
def Value.print : Value → Text
  | .text content => content.quoted
  | .null => "None".toList
  | .integer number => decimal number
  | .truth true => "True".toList
  | .truth false => "False".toList
  | .list items => '[' :: commaSeparated (Value.printAll items) ++ [']']
  | .found value span =>
    printRecord "MatchResult".toList
      [("value".toList, Value.print value), ("start".toList, decimal span.start),
        ("end".toList, decimal span.stop)]

/-- The printed forms of the values. -/
def Value.printAll : List Value → List Text
  | [] => []
  | item :: items => Value.print item :: Value.printAll items

end

/-- The printed form of a match. -/
def Match.print (m : Match) : Text :=
  m.toValue.print

end CursorGrammar
