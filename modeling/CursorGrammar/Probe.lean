import CursorGrammar.Grammar

set_option autoImplicit false

/-! # Probes

Matchers of a user's own, which use the cursor as they like. They show what the combinators make of
members that keep no rule: members that match nothing but move the cursor, jump, claim spans that
they have not read, or end the run. -/

namespace CursorGrammar

/-- A matcher of a user's own. -/
inductive Probe where
  /-- Never matches. -/
  | fail
  /-- Reads a character and gives nothing. -/
  | leaky
  /-- Matches any character. -/
  | any
  /-- Matches all that is left. -/
  | rest
  /-- Matches nothing at the cursor. -/
  | zero
  /-- Goes back to the beginning and matches nothing there. -/
  | rewind
  /-- Puts the cursor anywhere, and matches from where it was if so told. -/
  | goto (cursor : Int) (succeeds : Bool)
  /-- Claims a span without moving the cursor. -/
  | claim (start stop : Int)
  /-- Reads a character and ends the run. -/
  | boom
  deriving DecidableEq, Repr

namespace Probe

/-- What the probe does. -/
def behaviour : Probe → Behaviour
  | fail => return none
  | leaky => do
    let shown ← Attempt.lookahead (some 1)
    let _ ← Attempt.consume shown none
    return none
  | any => do
    let start ← Attempt.position
    let shown ← Attempt.lookahead (some 1)
    if shown = [] then return none
    else if ← Attempt.consume shown none then
      return some (← Attempt.matchFrom (.text shown) start)
    else return none
  | rest => do
    let start ← Attempt.position
    let shown ← Attempt.lookahead none
    let _ ← Attempt.consume shown none
    return some (← Attempt.matchFrom (.text shown) start)
  | zero => do
    let start ← Attempt.position
    return some (← Attempt.matchFrom (.text []) start)
  | rewind => do
    Attempt.seek 0
    return some (← Attempt.matchBetween (.text []) 0 0)
  | goto cursor succeeds => do
    let start ← Attempt.position
    Attempt.seek cursor
    if succeeds then return some (← Attempt.matchFrom (.text ['g', 'o', 't', 'o']) start)
    else return none
  | claim start stop => do
    return some (← Attempt.matchBetween (.text ['c', 'l', 'a', 'i', 'm']) start stop)
  | boom => do
    let shown ← Attempt.lookahead (some 1)
    let _ ← Attempt.consume shown none
    Attempt.raise (.raised ['b', 'o', 'o', 'm'])

end Probe

/-- A call of a rule by its name, of a matcher under observation, or of a probe. -/
inductive Callee where
  | rule (name : Text)
  | observed (label : Text) (matcher : Matcher Callee)
  | probe (probe : Probe)

/-- The grammar of the rules, where a name stands for the first rule of that name. -/
def Grammar.ofRules (rules : List (Text × Matcher Callee)) : Grammar Callee
  | .rule name =>
    match rules.lookup name with
    | some matcher => .forward matcher
    | none => .native (Attempt.raise (.unknownRule name))
  | .observed label matcher => .observe label matcher
  | .probe probe => .native probe.behaviour

end CursorGrammar
