import CursorGrammar.Regex.Route

set_option autoImplicit false

/-! # Code

A route laid out as numbered instructions, each of which names the one to go on with. A route is
laid out from its end to its beginning: what comes after it stands before it. -/

namespace CursorGrammar

/-- One instruction of the code. -/
inductive Instruction where
  /-- The whole expression has been read. -/
  | accept
  /-- Reads one character of the set. -/
  | read (members : CharSet) (next : Nat)
  /-- Goes on where the condition holds. -/
  | test (assertion : Assertion) (next : Nat)
  /-- Passes the edge of a group. -/
  | pass (next : Nat)
  /-- Goes on with the one, or else with the other. -/
  | choose (preferred other : Nat)
  deriving DecidableEq, Repr

/-- Instructions, numbered from zero. -/
abbrev Code := Array Instruction

/-- A choice between going round again and going on. -/
def Flags.chooseRound (flags : Flags) (round next : Nat) : Instruction :=
  if flags.lazy then .choose next round else .choose round next

/-- Lays a route out behind the code, to go on with the instruction `next`; gives the number of
    its first instruction. An idle round of a loop must not end the search for another way through
    the body, so a loop that may have no round, with a body that can do nothing, is an optional
    loop of one or more. -/
def Route.layOut : Route → Nat → Code → Nat × Code
  | empty, next, code => (next, code)
  | read members, next, code => (code.size, code.push (.read members next))
  | test assertion, next, code => (code.size, code.push (.test assertion next))
  | group body, next, code =>
    let close := code.size
    let (entry, code) := body.layOut close ((code.push (.pass next)).push (.pass close))
    (close + 1, code.setIfInBounds (close + 1) (.pass entry))
  | cat first second, next, code =>
    let (middle, code) := second.layOut next code
    first.layOut middle code
  | alt preferred other, next, code =>
    let place := code.size
    let (other, code) := other.layOut next (code.push (.choose next next))
    let (preferred, code) := preferred.layOut next code
    (place, code.setIfInBounds place (.choose preferred other))
  | loop .zeroOrOne flags body, next, code =>
    let place := code.size
    let (entry, code) := body.layOut next (code.push (.choose next next))
    (place, code.setIfInBounds place (flags.chooseRound entry next))
  | loop .oneOrMore flags body, next, code =>
    let place := code.size
    let (entry, code) := body.layOut place (code.push (.choose next next))
    (entry, code.setIfInBounds place (flags.chooseRound entry next))
  | loop .zeroOrMore flags body, next, code =>
    let place := code.size
    if body.nullable then
      let (entry, code) :=
        body.layOut (place + 1) ((code.push (.choose next next)).push (.choose next next))
      (place, (code.setIfInBounds place (flags.chooseRound entry next)).setIfInBounds (place + 1)
        (flags.chooseRound entry next))
    else
      let (entry, code) := body.layOut place (code.push (.choose next next))
      (place, code.setIfInBounds place (flags.chooseRound entry next))

end CursorGrammar
