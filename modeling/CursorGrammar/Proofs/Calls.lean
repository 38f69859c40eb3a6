import CursorGrammar.Grammar

set_option autoImplicit false

/-! # Calls

What a matcher does in a grammar depends on the calls in it, on the calls in what those go on with,
and so forth. A set of allowed calls is closed if it is never left that way. What holds of the
leaves, of the allowed calls that behave in a way of their own, and of a compound whenever it holds
of its members, then holds of every matcher that makes allowed calls only, however its rules call
each other: the induction is on the nesting of the run and not on the tree. -/

namespace CursorGrammar

variable {κ : Type}

/-- The matcher that a call goes on with, if it is the call of one. -/
def Target.matcher? : Target κ → Option (Matcher κ)
  | forward matcher => some matcher
  | observe _ matcher => some matcher
  | native _ => none

/-- All calls in the matcher are allowed ones. -/
inductive Matcher.CallsOnly (allowed : κ → Prop) : Matcher κ → Prop
  | char (value : Text) : CallsOnly allowed (.char value)
  | pattern (p : Pattern) : CallsOnly allowed (.pattern p)
  | seq {matchers : List (Matcher κ)} (h : ∀ m ∈ matchers, CallsOnly allowed m) :
      CallsOnly allowed (.seq matchers)
  | alt {matchers : List (Matcher κ)} (h : ∀ m ∈ matchers, CallsOnly allowed m) :
      CallsOnly allowed (.alt matchers)
  | quant {matcher : Matcher κ} {least : Int} {most : Option Int}
      (h : CallsOnly allowed matcher) : CallsOnly allowed (.quant matcher least most)
  | opt {matcher : Matcher κ} (h : CallsOnly allowed matcher) : CallsOnly allowed (.opt matcher)
  | call {target : κ} (h : allowed target) : CallsOnly allowed (.call target)

mutual

/-- If every call is an allowed one, then all matchers make allowed calls only. -/
theorem Matcher.callsOnly_of_forall {allowed : κ → Prop} (h : ∀ target, allowed target) :
    (matcher : Matcher κ) → matcher.CallsOnly allowed
  | .char value => .char value
  | .pattern p => .pattern p
  | .seq matchers => .seq (Matcher.forall_callsOnly_of_forall h matchers)
  | .alt matchers => .alt (Matcher.forall_callsOnly_of_forall h matchers)
  | .quant matcher _ _ => .quant (Matcher.callsOnly_of_forall h matcher)
  | .opt matcher => .opt (Matcher.callsOnly_of_forall h matcher)
  | .call target => .call (h target)

theorem Matcher.forall_callsOnly_of_forall {allowed : κ → Prop} (h : ∀ target, allowed target) :
    (matchers : List (Matcher κ)) → ∀ m ∈ matchers, m.CallsOnly allowed
  | [] => List.forall_mem_nil _
  | first :: rest => by
    rintro m (_ | ⟨_, hm⟩)
    · exact Matcher.callsOnly_of_forall h first
    · exact Matcher.forall_callsOnly_of_forall h rest m hm

end

/-- What an allowed call goes on with makes allowed calls only. -/
def Grammar.ClosedUnder (grammar : Grammar κ) (allowed : κ → Prop) : Prop :=
  ∀ target matcher, allowed target → (grammar target).matcher? = some matcher →
    matcher.CallsOnly allowed

namespace Matcher

variable {grammar : Grammar κ} {allowed : κ → Prop} {rounds : Nat}

/-- Induction over the runs of a matcher that makes allowed calls only. -/
theorem behave_induction {motive : Matcher κ → Behaviour → Prop}
    (hclosed : grammar.ClosedUnder allowed)
    (exhaust : ∀ matcher, motive matcher Attempt.exhaust)
    (character : ∀ value, motive (char value) (Behaviour.character value))
    (pattern : ∀ p, motive (pattern p) (Behaviour.pattern p))
    (sequence : ∀ matchers inner, (∀ m ∈ matchers, motive m (inner m)) →
      motive (seq matchers) (Behaviour.sequence (matchers.map inner)))
    (alternation : ∀ matchers inner, (∀ m ∈ matchers, motive m (inner m)) →
      motive (alt matchers) (Behaviour.alternation (matchers.map inner)))
    (quantifier : ∀ matcher inner least most, motive matcher inner →
      motive (quant matcher least most) (Behaviour.quantifier rounds inner least most))
    (optional : ∀ matcher inner, motive matcher inner →
      motive (opt matcher) (Behaviour.optional inner))
    (forward : ∀ target matcher inner, grammar target = .forward matcher →
      motive matcher inner → motive (call target) inner)
    (observe : ∀ target label matcher inner, grammar target = .observe label matcher →
      motive matcher inner → motive (call target) (Behaviour.observed label inner))
    (native : ∀ target behaviour, allowed target → grammar target = .native behaviour →
      motive (call target) behaviour)
    (nesting : Nat) (matcher : Matcher κ) (hcalls : matcher.CallsOnly allowed) :
    motive matcher (matcher.behave grammar rounds nesting) := by
  -- not on the tree: what a call goes on with need not be smaller than the call
  induction nesting generalizing matcher with
  | zero => exact exhaust matcher
  | succ nesting ih =>
    cases hcalls with
    | char value => exact character value
    | pattern p => exact pattern p
    | seq h => exact sequence _ _ fun m hm => ih m (h m hm)
    | alt h => exact alternation _ _ fun m hm => ih m (h m hm)
    | quant h => exact quantifier _ _ _ _ (ih _ h)
    | opt h => exact optional _ _ (ih _ h)
    | @call target h =>
      show motive (call target) (match grammar target with
        | .forward matcher => matcher.behave grammar rounds nesting
        | .observe label matcher =>
          Behaviour.observed label (matcher.behave grammar rounds nesting)
        | .native behaviour => behaviour)
      cases htarget : grammar target with
      | forward matcher =>
        have hmatcher : matcher.CallsOnly allowed :=
          hclosed target matcher h (by rw [htarget]; rfl)
        exact forward target matcher _ htarget (ih matcher hmatcher)
      | observe label matcher =>
        have hmatcher : matcher.CallsOnly allowed :=
          hclosed target matcher h (by rw [htarget]; rfl)
        exact observe target label matcher _ htarget (ih matcher hmatcher)
      | native behaviour => exact native target behaviour h htarget

end Matcher

end CursorGrammar
