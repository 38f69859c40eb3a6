import CursorGrammar.Parse
import CursorGrammar.Proofs.Agreement

set_option autoImplicit false

/-! # Parsing a whole text

Parsing a whole text asks where the run has left the cursor, and not what its match covers. For a
behaviour that keeps the cursor contract the two questions have the same answer: the match begins
at the beginning and ends at the cursor, and the cursor has not left the text. So a whole text is
parsed just when the text is parsed with a match that covers all of it. -/

namespace CursorGrammar

namespace Behaviour

variable {behaviour : Behaviour} {gaveUp : Prop} {source : Text} {found : Match}
variable {progress : Progress}

theorem parse_zero_eq_returned_iff {outcome : Option Match} :
    behaviour.parse source 0 = .returned outcome ↔
      ∃ progress, behaviour.run ⟨source, 0⟩ = (.returned outcome, progress) := by
  rw [parse_of_mem source.inRange_zero]
  constructor
  · intro h
    exact ⟨_, Prod.ext h rfl⟩
  · rintro ⟨progress, hrun⟩
    rw [hrun]

/-- A match from the beginning covers the whole text just when the cursor has reached the end. -/
theorem Keeps.covers_iff_done (h : behaviour.Keeps gaveUp source)
    (hrun : behaviour.run ⟨source, 0⟩ = (.returned (some found), progress)) :
    found.span.Covers 0 source.length ↔ Feed.done ⟨source, progress.cursor⟩ = true := by
  obtain ⟨hstart, hstop, -, hend⟩ := (h ⟨0, []⟩ source.inRange_zero).of_returned hrun
  rw [Feed.done_iff, ← hstop]
  constructor
  · rintro ⟨-, hlength⟩
    exact Int.le_of_eq hlength.symm
  · intro hdone
    exact ⟨hstart, Int.le_antisymm hend hdone⟩

/-- A whole text is parsed with a match just when the text is, and the match covers all of it. -/
theorem Keeps.parseAll_eq_some_iff (h : behaviour.Keeps gaveUp source) :
    behaviour.parseAll source = .returned (some found) ↔
      behaviour.parse source 0 = .returned (some found) ∧
        found.span.Covers 0 source.length := by
  rw [parseAll_eq_returned_iff, parse_zero_eq_returned_iff]
  constructor
  · rintro ⟨parsed, progress, hrun, hfound⟩
    by_cases hdone : Feed.done ⟨source, progress.cursor⟩ = true
    · rw [if_pos hdone] at hfound
      subst hfound
      exact ⟨⟨progress, hrun⟩, (h.covers_iff_done hrun).2 hdone⟩
    · rw [if_neg hdone] at hfound
      cases hfound
  · rintro ⟨⟨progress, hrun⟩, hcovers⟩
    have hdone := (h.covers_iff_done hrun).1 hcovers
    exact ⟨some found, progress, hrun, by rw [if_pos hdone]⟩

/-- Parsing a whole text returns whenever the run does. -/
theorem Keeps.exists_parseAll (h : behaviour.Keeps False source) :
    ∃ outcome, behaviour.parseAll source = .returned outcome := by
  obtain ⟨parsed, progress, hrun, -⟩ := (h ⟨0, []⟩ source.inRange_zero).exists_returned
    (fun _ _ hraised => hraised) (fun _ hgaveUp => hgaveUp)
  exact ⟨_, parseAll_eq_returned_iff.2 ⟨parsed, progress, hrun, rfl⟩⟩

end Behaviour

namespace Matcher

/-- Within wide limits, a text is parsed with what the matcher is judged to do at its beginning. -/
theorem parse_zero_iff_judged {matcher : Matcher Empty} {source : Text} {limits : Limits}
    (hnesting : matcher.depth ≤ limits.nesting) (hrounds : source.length < limits.rounds)
    {outcome : Option Match} :
    (matcher.behaviour .plain limits).parse source 0 = .returned outcome ↔
      Judged .plain source matcher 0 outcome := by
  have hrange : source.InRange (Progress.mk 0 []).cursor := source.inRange_zero
  exact Behaviour.parse_zero_eq_returned_iff.trans
    (plain_gives_iff_judged hrange hnesting hrounds)

end Matcher

end CursorGrammar
