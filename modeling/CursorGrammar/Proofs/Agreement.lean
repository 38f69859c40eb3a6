import CursorGrammar.Proofs.Refinement

set_option autoImplicit false

/-! # Behaviours that agree

Two behaviours end alike from a cursor on if both return there, with outcomes that are related in
some way, and leave the cursor at the same place. They agree if the outcomes are the same. What they
do on the way may differ. They settle alike if moreover that place is where their matches end or, if
there are none, where the cursor was. As a run returns what its matcher is judged to do, two
matchers without calls do so where all that one is judged to do has its like in what the other is
judged to do. -/

namespace CursorGrammar

/-- Both outcomes are nothing, or they are matches with the same span whose values are related in
    this way. -/
def Match.Alike (related : Value → Value → Prop) : Option Match → Option Match → Prop
  | none, none => True
  | some found, some found' => found.span = found'.span ∧ related found.value found'.value
  | _, _ => False

/-- Both outcomes are nothing, or they are matches with the same span. -/
abbrev Match.CoverAlike : Option Match → Option Match → Prop :=
  Alike fun _ _ => True

theorem Match.Alike.stopFrom_eq {related : Value → Value → Prop} {outcome outcome' : Option Match}
    (h : Alike related outcome outcome') (p : Int) : stopFrom p outcome = stopFrom p outcome' := by
  cases outcome with
  | none =>
    cases outcome' with
    | none => rfl
    | some found' => exact h.elim
  | some found =>
    cases outcome' with
    | none => exact h.elim
    | some found' => exact congrArg Span.stop h.1

namespace Behaviour

/-- On the text, from the progress on, the behaviour returns the outcome. -/
def Gives (behaviour : Behaviour) (source : Text) (progress : Progress) (outcome : Option Match) :
    Prop :=
  ∃ progress', behaviour source progress = (.returned outcome, progress')

/-- On the text, from the progress on, both behaviours return, with outcomes that are related in
    this way, and leave the cursor at the same place. -/
def EndAlike (related : Option Match → Option Match → Prop) (source : Text) (progress : Progress)
    (behaviour behaviour' : Behaviour) : Prop :=
  ∃ outcome outcome' cursor journal journal',
    behaviour source progress = (.returned outcome, ⟨cursor, journal⟩) ∧
    behaviour' source progress = (.returned outcome', ⟨cursor, journal'⟩) ∧
    related outcome outcome'

/-- Both behaviours return the same outcome, and leave the cursor at the same place. -/
abbrev AgreeFrom (source : Text) (progress : Progress) (behaviour behaviour' : Behaviour) : Prop :=
  EndAlike Eq source progress behaviour behaviour'

/-- On the text, from the progress on, the behaviour returns the outcome, and leaves the cursor where
    the match ends or, if there is none, where it was. -/
def Settles (behaviour : Behaviour) (source : Text) (progress : Progress)
    (outcome : Option Match) : Prop :=
  ∃ journal, behaviour source progress
    = (.returned outcome, ⟨Match.stopFrom progress.cursor outcome, journal⟩)

/-- On the text, from the progress on, both behaviours settle, with outcomes that are related in this
    way. -/
def SettleAlike (related : Option Match → Option Match → Prop) (source : Text)
    (progress : Progress) (behaviour behaviour' : Behaviour) : Prop :=
  ∃ outcome outcome', behaviour.Settles source progress outcome ∧
    behaviour'.Settles source progress outcome' ∧ related outcome outcome'

end Behaviour

/-! ## Judgements -/

variable {κ : Type} {grammar : Grammar κ} {source : Text}

/-- There is one judgement at most of a matcher at an offset. -/
theorem Judged.unique {matcher : Matcher κ} {p : Int} {outcome outcome' : Option Match}
    (hrange : source.InRange p) (h : Judged grammar source matcher p outcome)
    (h' : Judged grammar source matcher p outcome') : outcome = outcome' := by
  have hboth := (h.eventually_returns hrange).and (h'.eventually_returns hrange)
  obtain ⟨limits, -, hreturns, hreturns'⟩ := hboth.exists_ge ⟨0, 0⟩
  obtain ⟨journal, hrun⟩ := hreturns []
  obtain ⟨journal', hrun'⟩ := hreturns' []
  cases hrun.symm.trans hrun'
  rfl

theorem not_fails_of_succeeds {matcher : Matcher κ} {p : Int} {found : Match}
    (hrange : source.InRange p) (h : Succeeds grammar source matcher p found) :
    ¬Fails grammar source matcher p := by
  intro hfails
  have hsome : Judged grammar source matcher p (some found) := h
  have hnone : Judged grammar source matcher p none := hfails
  cases hsome.unique hrange hnone

/-! ## Matchers without calls -/

namespace Matcher

/-- Inside the text, a matcher without calls is judged to do something. -/
theorem Plain.exists_judged {matcher : Matcher κ} (h : matcher.Plain) {p : Int}
    (hrange : source.InRange p) : ∃ outcome, Judged grammar source matcher p outcome := by
  have hrange' : source.InRange (Progress.mk p []).cursor := hrange
  let limits : Limits := ⟨matcher.depth, source.length + 1⟩
  have hnesting : matcher.depth ≤ limits.nesting := Nat.le_refl _
  have hrounds : source.length < limits.rounds := Nat.lt_succ_self _
  obtain ⟨outcome, progress', hrun⟩ : ∃ outcome progress',
      matcher.behaviour grammar limits source ⟨p, []⟩ = (.returned outcome, progress') :=
    h.exists_returned hrange' hnesting hrounds
  exact ⟨outcome, ((h.sound source limits _ hrange').of_returned hrun).1⟩

variable {progress : Progress} {limits : Limits} {matcher matcher' : Matcher Empty}

theorem plain_exists_judged (matcher : Matcher Empty) {p : Int} (hrange : source.InRange p) :
    ∃ outcome, Judged .plain source matcher p outcome :=
  matcher.plain.exists_judged hrange

/-- Inside the text and within wide limits, a run gives what the matcher is judged to do. -/
theorem plain_gives_iff_judged {outcome : Option Match} (hrange : source.InRange progress.cursor)
    (hnesting : matcher.depth ≤ limits.nesting) (hrounds : source.length < limits.rounds) :
    (matcher.behaviour .plain limits).Gives source progress outcome ↔
      Judged .plain source matcher progress.cursor outcome := by
  constructor
  · rintro ⟨progress', hrun⟩
    exact ((matcher.plain_sound source limits progress hrange).of_returned hrun).1
  · intro h
    obtain ⟨journal, hrun⟩ := plain_returned_of_judged hrange hnesting hrounds outcome h
    exact ⟨_, hrun⟩

section Alike

variable (hrange : source.InRange progress.cursor) (hnesting : matcher.depth ≤ limits.nesting)
variable (hnesting' : matcher'.depth ≤ limits.nesting) (hrounds : source.length < limits.rounds)

include hrange hnesting hnesting' hrounds

/-- Matchers end alike if whatever the one is judged to do has its like in what the other is judged
    to do. -/
theorem endAlike_of_judged {related : Option Match → Option Match → Prop}
    (h : ∀ outcome, Judged .plain source matcher progress.cursor outcome → ∃ outcome',
      Judged .plain source matcher' progress.cursor outcome' ∧
        Match.stopFrom progress.cursor outcome = Match.stopFrom progress.cursor outcome' ∧
        related outcome outcome') :
    Behaviour.EndAlike related source progress (matcher.behaviour .plain limits)
      (matcher'.behaviour .plain limits) := by
  obtain ⟨outcome, hjudged⟩ := matcher.plain_exists_judged hrange
  obtain ⟨outcome', hjudged', hstop, hrelated⟩ := h outcome hjudged
  obtain ⟨journal, hrun⟩ := plain_returned_of_judged hrange hnesting hrounds outcome hjudged
  obtain ⟨journal', hrun'⟩ := plain_returned_of_judged hrange hnesting' hrounds outcome' hjudged'
  rw [← hstop] at hrun'
  exact ⟨outcome, outcome', _, journal, journal', hrun, hrun', hrelated⟩

/-- Matchers settle alike if whatever the one is judged to do is related to something that the other
    is judged to do. -/
theorem settleAlike_of_judged {related : Option Match → Option Match → Prop}
    (h : ∀ outcome, Judged .plain source matcher progress.cursor outcome → ∃ outcome',
      Judged .plain source matcher' progress.cursor outcome' ∧ related outcome outcome') :
    Behaviour.SettleAlike related source progress (matcher.behaviour .plain limits)
      (matcher'.behaviour .plain limits) := by
  obtain ⟨outcome, hjudged⟩ := matcher.plain_exists_judged hrange
  obtain ⟨outcome', hjudged', hrelated⟩ := h outcome hjudged
  exact ⟨outcome, outcome', plain_returned_of_judged hrange hnesting hrounds outcome hjudged,
    plain_returned_of_judged hrange hnesting' hrounds outcome' hjudged', hrelated⟩

/-- Matchers agree if whatever the one is judged to do, the other is judged to do as well. -/
theorem agreeFrom_of_judged
    (h : ∀ outcome, Judged .plain source matcher progress.cursor outcome →
      Judged .plain source matcher' progress.cursor outcome) :
    Behaviour.AgreeFrom source progress (matcher.behaviour .plain limits)
      (matcher'.behaviour .plain limits) :=
  endAlike_of_judged hrange hnesting hnesting' hrounds fun outcome hjudged =>
    ⟨outcome, h outcome hjudged, rfl, rfl⟩

end Alike

end Matcher

end CursorGrammar
