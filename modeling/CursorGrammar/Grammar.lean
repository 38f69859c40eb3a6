import CursorGrammar.Behaviour
import CursorGrammar.Matcher

set_option autoImplicit false

/-! # Grammars

A grammar says what the calls in a matcher do: go on with another matcher, which is how rules refer
to each other, or behave in a way of their own. Within a grammar every matcher has a behaviour.

Rules may call each other forever. So a run is limited in how many matchers can be in progress one
inside the other, and in how many rounds a repetition without an upper bound can take; a run that
meets a limit is exhausted, which is neither a match nor a failure. -/

namespace CursorGrammar

/-- What a call does. -/
inductive Target (κ : Type) where
  /-- It is the call of another matcher. -/
  | forward (matcher : Matcher κ)
  /-- It is the call of another matcher, and is noted in the journal under the label. -/
  | observe (label : Text) (matcher : Matcher κ)
  /-- It behaves in a way of its own. -/
  | native (behaviour : Behaviour)

/-- What the calls do. -/
abbrev Grammar (κ : Type) := κ → Target κ

/-- How far a run may go. -/
structure Limits where
  /-- How many matchers can be in progress one inside the other. -/
  nesting : Nat
  /-- How many rounds a repetition without an upper bound can take. -/
  rounds : Nat

/-- Limits that are out of reach for matchers that end. -/
def Limits.wide : Limits := ⟨100000, 1000000000⟩

namespace Matcher

variable {κ : Type}

/-- What the matcher does in the grammar, with at most `nesting` matchers in progress one inside
    the other, this one included, and `rounds` rounds of a repetition. -/
def behave (grammar : Grammar κ) (rounds : Nat) : Nat → Matcher κ → Behaviour
  | 0, _ => Attempt.exhaust
  | _ + 1, char value => Behaviour.character value
  | _ + 1, pattern p => Behaviour.pattern p
  | nesting + 1, seq matchers =>
    Behaviour.sequence (matchers.map fun matcher => behave grammar rounds nesting matcher)
  | nesting + 1, alt matchers =>
    Behaviour.alternation (matchers.map fun matcher => behave grammar rounds nesting matcher)
  | nesting + 1, quant matcher least most =>
    Behaviour.quantifier rounds (behave grammar rounds nesting matcher) least most
  | nesting + 1, opt matcher => Behaviour.optional (behave grammar rounds nesting matcher)
  | nesting + 1, call target =>
    match grammar target with
    | .forward matcher => behave grammar rounds nesting matcher
    | .observe label matcher => Behaviour.observed label (behave grammar rounds nesting matcher)
    | .native behaviour => behaviour

/-- What the matcher does in the grammar within the limits. -/
def behaviour (matcher : Matcher κ) (grammar : Grammar κ) (limits : Limits) : Behaviour :=
  matcher.behave grammar limits.rounds limits.nesting

end Matcher

/-- The grammar of matchers without calls. -/
def Grammar.plain : Grammar Empty := nofun

end CursorGrammar
