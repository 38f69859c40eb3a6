import CursorGrammar.Probe
import CursorGrammar.Proofs.Containment
import CursorGrammar.Proofs.Returns

set_option autoImplicit false

/-! # What a repetition reports

The match of a repetition holds the matches that its rounds have given, and it ends where the cursor
is when the repetition has come to its end. That is where the last of the rounds has left it, unless
a further call has given nothing and left it elsewhere. Such a call is not undone: what it has read
is covered by the match, although nothing has been collected there. -/

namespace CursorGrammar

namespace Behaviour

open Attempt

variable {behaviour : Behaviour} {source : Text} {most : Option Int}

/-- The calls that a repetition makes from the progress on, after `count` rounds: further rounds give
    these matches, and the last of them leaves off at `reached`; then the repetition comes to its end
    at `ended`. It does so because there must be no more rounds, because a call gives nothing, or
    because without an upper bound a round leaves the cursor where it was. -/
inductive Collects (behaviour : Behaviour) (source : Text) (most : Option Int) :
    Nat → Progress → List Match → Progress → Progress → Prop
  | full {count : Nat} {progress : Progress} {bound : Int} (hmost : most = some bound)
      (h : bound ≤ count) : Collects behaviour source most count progress [] progress progress
  | failed {count : Nat} {before after : Progress}
      (hroom : ∀ bound ∈ most, (count : Int) < bound)
      (hcall : behaviour source before = (.returned none, after)) :
      Collects behaviour source most count before [] before after
  | stalled {count : Nat} {before after : Progress} {found : Match} (hmost : most = none)
      (hcall : behaviour source before = (.returned (some found), after))
      (hstays : after.cursor = before.cursor) :
      Collects behaviour source most count before [found] after after
  | more {count : Nat} {before after reached ended : Progress} {found : Match}
      {founds : List Match} (hroom : ∀ bound ∈ most, (count : Int) < bound)
      (hcall : behaviour source before = (.returned (some found), after))
      (hmoved : most = none → after.cursor ≠ before.cursor)
      (hrest : Collects behaviour source most (count + 1) after founds reached ended) :
      Collects behaviour source most count before (found :: founds) reached ended

/-- Between the last round and the end there is at most one call, which has given nothing. -/
theorem Collects.eq_or_failed {count : Nat} {progress reached ended : Progress}
    {founds : List Match}
    (h : behaviour.Collects source most count progress founds reached ended) :
    reached = ended ∨ behaviour source reached = (.returned none, ended) := by
  induction h with
  | full _ _ => exact Or.inl rfl
  | failed _ hcall => exact Or.inr hcall
  | stalled _ _ _ => exact Or.inl rfl
  | more _ _ _ _ ih => exact ih

/-! ## The calls are what the repetition does -/

/-- A match that is given holds what has been collected before and what the further calls collect,
    and reaches from `start` to where they have ended. -/
abbrev reportsFrom (behaviour : Behaviour) (source : Text) (most : Option Int) (start : Int)
    (count : Nat) (collected : List Match) (progress : Progress) : Post (Option Match) :=
  .ifReturned fun outcome ended => ∀ found, outcome = some found → ∃ founds reached,
    behaviour.Collects source most count progress founds reached ended ∧
      found.value = .ofMatches (collected.reverse ++ founds) ∧
      found.span.Covers start ended.cursor

section Rounds

variable {least start : Int} {count : Nat} {collected : List Match} {progress ended : Progress}

/-- A repetition that has come to its end gives what it has collected. -/
theorem ensures_endRepetition_reports {stalled : Bool} {founds : List Match} {reached : Progress}
    (h : behaviour.Collects source most count progress founds reached ended) :
    (endRepetition least start stalled (founds.reverse ++ collected)).Ensures source ended
      (reportsFrom behaviour source most start count collected progress) := by
  unfold endRepetition
  split
  next =>
    refine ensures_matchFrom_bind_ifReturned fun span hstart hstop => ?_
    rintro found ⟨⟩
    refine ⟨founds, reached, h, ?_, hstart, hstop⟩
    rw [List.reverse_append, List.reverse_reverse]
  next => exact nofun

/-- What the rounds after a first one report is reported together with its match. -/
theorem ensures_reports_more {attempt : Behaviour} {found : Match} {after : Progress}
    (hroom : ∀ bound ∈ most, (count : Int) < bound)
    (hcall : behaviour source progress = (.returned (some found), after))
    (hmoved : most = none → after.cursor ≠ progress.cursor)
    (h : attempt.Ensures source after
      (reportsFrom behaviour source most start (count + 1) (found :: collected) after)) :
    attempt.Ensures source after
      (reportsFrom behaviour source most start count collected progress) := by
  refine h.mono ?_ (fun _ _ _ => trivial) (fun _ _ => trivial)
  intro outcome ended hreports whole hwhole
  obtain ⟨founds, reached, hrest, hvalue, hspan⟩ := hreports whole hwhole
  refine ⟨found :: founds, reached, .more hroom hcall hmoved hrest, ?_, hspan⟩
  rw [hvalue, List.reverse_cons, List.append_assoc]
  rfl

theorem ensures_boundedRounds_reports (behaviour : Behaviour) (least start : Int) {bound : Int}
    {rounds : Nat} (hrounds : (bound - count).toNat = rounds) (collected : List Match) :
    (boundedRounds behaviour least start rounds collected).Ensures source progress
      (reportsFrom behaviour source (some bound) start count collected progress) := by
  induction rounds generalizing count collected progress with
  | zero => exact ensures_endRepetition_reports (.full rfl (by omega))
  | succ rounds ih =>
    have hroom : ∀ bound' ∈ some bound, (count : Int) < bound' := by
      rintro _ ⟨⟩
      omega
    refine ensures_bind_of_returned fun outcome after hcall => ?_
    cases outcome with
    | none => exact ensures_endRepetition_reports (.failed hroom hcall)
    | some found =>
      exact ensures_reports_more hroom hcall nofun (ih (by omega) (found :: collected))

theorem ensures_unboundedRounds_reports (behaviour : Behaviour) (least start : Int)
    (rounds : Nat) (collected : List Match) :
    (unboundedRounds behaviour least start rounds collected).Ensures source progress
      (reportsFrom behaviour source none start count collected progress) := by
  induction rounds generalizing count collected progress with
  | zero => exact trivial
  | succ rounds ih =>
    have hroom : ∀ bound ∈ (none : Option Int), (count : Int) < bound := nofun
    unfold unboundedRounds
    rw [ensures_position_bind]
    refine ensures_bind_of_returned fun outcome after hcall => ?_
    cases outcome with
    | none => exact ensures_endRepetition_reports (.failed hroom hcall)
    | some found =>
      rw [ensures_position_bind]
      split
      next hstays => exact ensures_endRepetition_reports (.stalled rfl hcall hstays)
      next hmoved =>
        exact ensures_reports_more hroom hcall (fun _ => hmoved) (ih (found :: collected))

end Rounds

theorem ensures_quantifier_reports (limit : Nat) (behaviour : Behaviour) (least : Int)
    (most : Option Int) (source : Text) (progress : Progress) :
    (quantifier limit behaviour least most).Ensures source progress
      (reportsFrom behaviour source most progress.cursor 0 [] progress) := by
  unfold quantifier
  rw [ensures_position_bind]
  cases most with
  | some bound => exact ensures_boundedRounds_reports behaviour least _ (by simp) []
  | none => exact ensures_unboundedRounds_reports behaviour least _ limit []

/-- Whenever a repetition gives a match, whatever its behaviour does and wherever it is called, the
    match holds the matches of all its rounds, and it reaches from where the repetition has begun to
    where it has come to its end. That is where the last of the rounds has left the cursor, or where
    the repetition has begun if there are none; but if a call has then given nothing, it is where
    that call has left the cursor. So the match ends with what has been collected if the behaviour
    restores the cursor whenever it gives nothing. -/
theorem quantifier_reports (limit : Nat) (least : Int) {progress ended : Progress} {found : Match}
    (hrun : quantifier limit behaviour least most source progress
      = (.returned (some found), ended)) :
    ∃ founds reached, behaviour.Collects source most 0 progress founds reached ended ∧
      found.value = .ofMatches founds ∧ found.span.Covers progress.cursor ended.cursor ∧
      (reached = ended ∨ behaviour source reached = (.returned none, ended)) ∧
      (behaviour.Restores source → found.span.stop = reached.cursor) := by
  have hreports := ensures_quantifier_reports limit behaviour least most source progress
  obtain ⟨founds, reached, hcollects, hvalue, hspan⟩ := hreports.of_returned hrun found rfl
  refine ⟨founds, reached, hcollects, hvalue, hspan, hcollects.eq_or_failed, ?_⟩
  intro hrestores
  rw [hspan.2]
  rcases hcollects.eq_or_failed with rfl | hfailed
  · rfl
  · exact hrestores reached ended hfailed

/-- The first round collects a character. The second reads the other one and gives nothing, and the
    match ends behind it. -/
theorem quantifier_reports_leak :
    let behaviour := alternation [character ['a'], Probe.leaky.behaviour]
    let source : Text := ['a', 'b']
    let progress : Progress := ⟨0, []⟩
    ∃ found ended, quantifier 2 behaviour 1 none source progress
        = (.returned (some found), ended) ∧ found.span.Covers 0 2 ∧
      ∃ founds reached, behaviour.Collects source none 0 progress founds reached ended ∧
        found.value = .ofMatches founds ∧ found.span.Covers progress.cursor ended.cursor ∧
        (reached = ended ∨ behaviour source reached = (.returned none, ended)) ∧
        (behaviour.Restores source → found.span.stop = reached.cursor) := by
  -- evaluated apart from the local definitions, which slow it down
  obtain ⟨found, ended, hrun, hspan⟩ : ∃ found ended,
      quantifier 2 (alternation [character ['a'], Probe.leaky.behaviour]) 1 none ['a', 'b'] ⟨0, []⟩
        = (.returned (some found), ended) ∧ found.span.Covers 0 2 := ⟨_, _, rfl, rfl, rfl⟩
  exact ⟨found, ended, hrun, hspan, quantifier_reports 2 1 hrun⟩

end Behaviour

/-- A matcher that reads a character and gives nothing never raises a fault, and never goes back. -/
theorem Probe.leaky_returned (source : Text) (before : Progress) :
    ∃ outcome after, leaky.behaviour source before = (.returned outcome, after) ∧
      before.cursor ≤ after.cursor := by
  have hensures : leaky.behaviour.Ensures source before
      ⟨fun _ after => before.cursor ≤ after.cursor, fun _ _ => False, fun _ => False⟩ := by
    refine Attempt.ensures_lookahead_bind fun journal => Attempt.ensures_consume_bind ?_ ?_
    · intro _ journal
      exact Int.le_add_of_nonneg_right (Int.natCast_nonneg _)
    · intro _ journal
      exact Int.le_refl _
  exact hensures.exists_returned (fun _ _ hraised => hraised) (fun _ hgaveUp => hgaveUp)

namespace Behaviour

/-- The match of a repetition need not end with what has been collected, although its matcher never
    raises a fault and never goes back: here nothing is collected, and a character is covered. -/
theorem quantifier_stop_ne_reached :
    let behaviour := Probe.leaky.behaviour
    let source : Text := ['a']
    let progress : Progress := ⟨0, []⟩
    (∀ before, ∃ outcome after, behaviour source before = (.returned outcome, after) ∧
        before.cursor ≤ after.cursor) ∧
      source.InRange progress.cursor ∧ ∃ found reached ended,
        quantifier 1 behaviour 0 none source progress = (.returned (some found), ended) ∧
        behaviour.Collects source none 0 progress [] reached ended ∧
        found.value = .ofMatches [] ∧ reached.cursor = 0 ∧ found.span.stop = 1 := by
  intro behaviour source progress
  let ended : Progress := ⟨1, [⟨.consume ['a'] none true, 1⟩, ⟨.lookahead (some 1) ['a'], 0⟩]⟩
  have hcall : Probe.leaky.behaviour ['a'] ⟨0, []⟩ = (.returned none, ended) := rfl
  have hrun : quantifier 1 Probe.leaky.behaviour 0 none ['a'] ⟨0, []⟩
      = (.returned (some ⟨.ofMatches [], 0, 1, by decide, by decide⟩), ended) := rfl
  exact ⟨Probe.leaky_returned source, ⟨by decide, by decide⟩, _, progress, ended, hrun,
    .failed nofun hcall, rfl, rfl, rfl⟩

end Behaviour

end CursorGrammar
