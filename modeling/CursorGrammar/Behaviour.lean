import CursorGrammar.Attempt
import CursorGrammar.Pattern

set_option autoImplicit false

/-! # Behaviours

A behaviour is what a matcher does when it is called: an attempt that gives a match or nothing.
The leaves read the text. The combinators call other behaviours, whatever they may do, and put the
cursor back as follows.

| Combinator  | Cursor if it gives nothing                  |
|-------------|---------------------------------------------|
| sequence    | put back to where the sequence began        |
| quantifier  | put back to where the repetition began      |
| alternation | as the last branch left it                  |
| optional    | never gives nothing, and always put back    |
-/

namespace CursorGrammar

/-- What a matcher does when it is called. -/
abbrev Behaviour := Attempt (Option Match)

namespace Behaviour

/-! ## Leaves -/

/-- Matches one character: the first of `value`, which is the value of the match. -/
def character (value : Text) : Behaviour := do
  let start ← Attempt.position
  if ← Attempt.consume value (some 1) then
    return some (← Attempt.matchFrom (.text value) start)
  else return none

/-- Matches what the pattern finds in the text from the cursor on, if that stands at the cursor. -/
def pattern (p : Pattern) : Behaviour := do
  match p.find (← Attempt.lookahead none) with
  | none => return none
  | some found =>
    let start ← Attempt.position
    if ← Attempt.consume found (some found.length) then
      return some (← Attempt.matchFrom (.text found) start)
    else return none

/-! ## Sequences -/

/-- Calls the behaviours in turn. `start` is where the sequence began, and `collected` what has
    matched so far, the latest first. -/
def sequenceFrom (start : Int) (collected : List Match) : List Behaviour → Behaviour
  | [] => do
    return some (← Attempt.matchFrom (.ofMatches collected.reverse) start)
  | behaviour :: rest => do
    match ← behaviour with
    | none =>
      Attempt.seek start
      return none
    | some found => sequenceFrom start (found :: collected) rest

/-- Matches all of the behaviours one after the other. -/
def sequence (behaviours : List Behaviour) : Behaviour := do
  sequenceFrom (← Attempt.position) [] behaviours

/-! ## Alternations -/

/-- Matches the first of the behaviours that gives a match. Each is called where the one before it
    has left the cursor. -/
def alternation : List Behaviour → Behaviour
  | [] => return none
  | behaviour :: rest => do
    match ← behaviour with
    | none => alternation rest
    | some found => return some found

/-! ## Repetitions -/

/-- Ends a repetition: with a match if there are enough rounds or it has stalled, and otherwise
    with the cursor put back. -/
def endRepetition (least : Int) (start : Int) (stalled : Bool) (collected : List Match) :
    Behaviour := do
  if stalled ∨ least ≤ collected.length then
    return some (← Attempt.matchFrom (.ofMatches collected.reverse) start)
  else
    Attempt.seek start
    return none

/-- At most `rounds` more rounds of the behaviour. -/
def boundedRounds (behaviour : Behaviour) (least : Int) (start : Int) :
    Nat → List Match → Behaviour
  | 0, collected => endRepetition least start false collected
  | rounds + 1, collected => do
    match ← behaviour with
    | none => endRepetition least start false collected
    | some found => boundedRounds behaviour least start rounds (found :: collected)

/-- Rounds of the behaviour for as long as it matches and moves the cursor. A repetition that
    matches without moving it has stalled, as every further round would be the same. After
    `rounds` rounds the attempt is given up. -/
def unboundedRounds (behaviour : Behaviour) (least : Int) (start : Int) :
    Nat → List Match → Behaviour
  | 0, _ => Attempt.exhaust
  | rounds + 1, collected => do
    let before ← Attempt.position
    match ← behaviour with
    | none => endRepetition least start false collected
    | some found =>
      if (← Attempt.position) = before then endRepetition least start true (found :: collected)
      else unboundedRounds behaviour least start rounds (found :: collected)

/-- Matches the behaviour as often as it can, but at most `most` times if that is given, and gives
    nothing if that is less often than `least`. The bounds may be any integers. `limit` is the
    number of rounds after which a repetition without an upper bound is given up. -/
def quantifier (limit : Nat) (behaviour : Behaviour) (least : Int) (most : Option Int) :
    Behaviour := do
  let start ← Attempt.position
  match most with
  | some most => boundedRounds behaviour least start most.toNat []
  | none => unboundedRounds behaviour least start limit []

/-! ## Options -/

/-- Calls the behaviour once, and puts the cursor back. The match covers nothing, and its value is
    what the behaviour gave. -/
def optional (behaviour : Behaviour) : Behaviour := do
  let start ← Attempt.position
  let outcome ← behaviour
  Attempt.seek start
  return some (← Attempt.matchFrom (.ofOption outcome) start)

/-! ## Observation -/

/-- Notes in the journal when the behaviour is called, and when it returns and whether with a
    match. -/
def observed (label : Text) (behaviour : Behaviour) : Behaviour := do
  Attempt.note (.enter label)
  let outcome ← behaviour
  Attempt.note (.leave label outcome.isSome)
  return outcome

end Behaviour

end CursorGrammar
