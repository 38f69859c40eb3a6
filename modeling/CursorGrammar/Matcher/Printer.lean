import CursorGrammar.Matcher
import CursorGrammar.Value.Printer

set_option autoImplicit false

/-! # Printed matchers

The form in which a matcher without calls is shown: a name for each kind, with the fields that make
up the matcher. Members stand in parentheses, and a single one has a comma after it. -/

namespace CursorGrammar

/-- The items in parentheses. -/
def printMembers : List Text → Text
  | [] => ['(', ')']
  | [item] => '(' :: item ++ [',', ')']
  | items => '(' :: commaSeparated items ++ [')']

/-- The printed form of an upper bound. -/
def printBound : Option Int → Text
  | none => "None".toList
  | some bound => decimal bound

namespace Matcher

mutual

/-- The printed form of a matcher without calls. -/
def print : Matcher Empty → Text
  | char value => printRecord "CharacterMatcher".toList [("value".toList, value.quoted)]
  | pattern p => printRecord "PatternMatcher".toList [("value".toList, p.fragment.quoted)]
  | seq matchers =>
    printRecord "SequenceMatcher".toList [("matchers".toList, printMembers (printAll matchers))]
  | alt matchers =>
    printRecord "AlternationMatcher".toList [("matchers".toList, printMembers (printAll matchers))]
  | quant matcher least most =>
    printRecord "QuantifierMatcher".toList
      [("matcher".toList, print matcher), ("min".toList, decimal least),
        ("max".toList, printBound most)]
  | opt matcher => printRecord "OptionalMatcher".toList [("matcher".toList, print matcher)]

/-- The printed forms of the matchers. -/
def printAll : List (Matcher Empty) → List Text
  | [] => []
  | matcher :: rest => print matcher :: printAll rest

end

end Matcher

end CursorGrammar
