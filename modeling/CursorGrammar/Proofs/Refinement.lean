import CursorGrammar.Proofs.Limits
import CursorGrammar.Proofs.Returns
import CursorGrammar.Proofs.Soundness

set_option autoImplicit false

/-! # Runs and judgements

The runs of matchers, which share a cursor that moves and is put back, and the judgements of
ordered choice, which know of no cursor, say the same. A judgement tells how every run ends whose
limits are wide enough, by recursion on its derivation. Conversely a run that returns has a
judgement that says so, by induction on the nesting of the run. -/

namespace CursorGrammar

variable {κ : Type} {grammar : Grammar κ} {source : Text}

/-! ## From judgements to runs -/

/-- A call does what the matcher does that it goes on with. -/
theorem Matcher.behaviour_call_returns {target : κ} {matcher : Matcher κ} {nesting rounds : Nat}
    {p q : Int} {outcome : Option Match} (htarget : (grammar target).matcher? = some matcher)
    (h : (matcher.behaviour grammar ⟨nesting, rounds⟩).Returns source p outcome q) :
    ((Matcher.call target).behaviour grammar ⟨nesting + 1, rounds⟩).Returns source p outcome q := by
  show (behave grammar rounds (nesting + 1) (.call target)).Returns source p outcome q
  unfold behave
  cases hcall : grammar target with
  | forward inner =>
    rw [hcall] at htarget
    cases htarget
    exact h
  | observe label inner =>
    rw [hcall] at htarget
    cases htarget
    exact (Attempt.returns_note _).bind (h.bind ((Attempt.returns_note _).bind
      (Attempt.returns_pure _)))
  | native behaviour =>
    rw [hcall] at htarget
    cases htarget

mutual

/-- A matcher that succeeds returns its match, and leaves the cursor where it ends. -/
theorem Succeeds.eventually_returns {matcher : Matcher κ} {p : Int} {found : Match}
    (hrange : source.InRange p) : Succeeds grammar source matcher p found →
      Limits.Eventually fun limits =>
        (matcher.behaviour grammar limits).Returns source p (some found) found.span.stop
  | @Succeeds.char _ _ _ value _ c span hvalue hrest hspan => by
    refine Limits.Eventually.of_succ fun nesting rounds => ?_
    show (Behaviour.character value).Returns source p _ span.stop
    rw [hspan.2]
    exact Behaviour.character_returns hrange hvalue hrest hspan
  | @Succeeds.pattern _ _ _ pattern _ found span hfound hbegins hspan => by
    refine Limits.Eventually.of_succ fun nesting rounds => ?_
    show (Behaviour.pattern pattern).Returns source p _ span.stop
    rw [hspan.2]
    exact Behaviour.pattern_returns hrange hfound hbegins hspan
  | @Succeeds.seq _ _ _ matchers _ q collected span h hspan => by
    refine (h.eventually_returns hrange).of_members fun nesting rounds hmembers => ?_
    show Attempt.Returns _ source p _ span.stop
    rw [hspan.2]
    exact Attempt.returns_position.bind (hmembers p [] span hspan)
  | .altFirst h => by
    refine (h.eventually_returns hrange).of_members fun nesting rounds hmember => ?_
    exact hmember.bind (Attempt.returns_pure _)
  | .altLater hfirst h => by
    have hothers := (h.eventually_returns hrange).outer
    refine ((hfirst.eventually_returns hrange).and hothers).of_members ?_
    rintro nesting rounds ⟨hmember, hothers⟩
    exact hmember.bind hothers
  | @Succeeds.quant _ _ _ matcher least most _ q collected stalled span h henough hspan => by
    obtain ⟨rounds, hrounds⟩ := h.eventually_returns hrange
    refine (hrounds.and (Limits.eventually_le_rounds rounds)).of_members ?_
    rintro nesting limit ⟨hmember, hle⟩
    have hrun := hmember limit hle least p [] (some ⟨.ofMatches collected, span⟩) q
    rw [List.append_nil] at hrun
    show (Behaviour.quantifier limit _ least most).Returns source p _ span.stop
    rw [Behaviour.quantifier_eq, hspan.2]
    replace hrun := hrun (Behaviour.endRepetition_returns henough hspan)
    exact Attempt.returns_position.bind hrun
  | .optFound h hspan => by
    refine (h.eventually_returns hrange).of_members fun nesting rounds hmember => ?_
    exact Behaviour.optional_returns hmember hspan
  | .optNothing h hspan => by
    refine (h.eventually_returns hrange).of_members fun nesting rounds hmember => ?_
    exact Behaviour.optional_returns hmember hspan
  | .call htarget h => by
    refine (h.eventually_returns hrange).of_members fun nesting rounds hmember => ?_
    exact Matcher.behaviour_call_returns htarget hmember

/-- A matcher that fails returns nothing, and leaves the cursor where it was. -/
theorem Fails.eventually_returns {matcher : Matcher κ} {p : Int} (hrange : source.InRange p) :
    Fails grammar source matcher p → Limits.Eventually fun limits =>
      (matcher.behaviour grammar limits).Returns source p none p
  | .char h =>
    Limits.Eventually.of_succ fun _ _ => Behaviour.character_returns_none hrange h
  | .pattern h =>
    Limits.Eventually.of_succ fun _ _ => Behaviour.pattern_returns_none hrange h
  | .seq h => by
    refine (h.eventually_returns hrange).of_members fun nesting rounds hmembers => ?_
    exact Attempt.returns_position.bind (hmembers p [])
  | .altNone =>
    Limits.Eventually.of_succ fun _ _ => Attempt.returns_pure _
  | .altAll hfirst h => by
    have hothers := (h.eventually_returns hrange).outer
    refine ((hfirst.eventually_returns hrange).and hothers).of_members ?_
    rintro nesting rounds ⟨hmember, hothers⟩
    exact hmember.bind hothers
  | @Fails.quant _ _ _ matcher least most _ q collected stalled h hfew => by
    obtain ⟨rounds, hrounds⟩ := h.eventually_returns hrange
    refine (hrounds.and (Limits.eventually_le_rounds rounds)).of_members ?_
    rintro nesting limit ⟨hmember, hle⟩
    have hrun := hmember limit hle least p [] none p
    rw [List.append_nil] at hrun
    show (Behaviour.quantifier limit _ least most).Returns source p none p
    rw [Behaviour.quantifier_eq]
    replace hrun := hrun (Behaviour.endRepetition_returns_none hfew)
    exact Attempt.returns_position.bind hrun
  | .call htarget h => by
    refine (h.eventually_returns hrange).of_members fun nesting rounds hmember => ?_
    exact Matcher.behaviour_call_returns htarget hmember

/-- Matchers that succeed in turn are a sequence that returns all their matches. -/
theorem SucceedInTurn.eventually_returns {matchers : List (Matcher κ)} {p q : Int}
    {founds : List Match} (hrange : source.InRange p) :
    SucceedInTurn grammar source matchers p founds q → Limits.Eventually fun limits =>
      ∀ start collected span, Span.Covers span start q →
        (Behaviour.sequenceFrom start collected (matchers.map fun matcher =>
          matcher.behave grammar limits.rounds limits.nesting)).Returns source p
            (some ⟨.ofMatches (collected.reverse ++ founds), span⟩) q
  | .nil => by
    refine Limits.Eventually.of_forall fun limits start collected span hspan => ?_
    rw [List.append_nil]
    exact (Attempt.returns_matchFrom hspan).bind (Attempt.returns_pure _)
  | @SucceedInTurn.cons _ _ _ _ _ _ _ found founds h hrest => by
    have hafter := (h.bounds hrange).2.2
    refine ((h.eventually_returns hrange).and (hrest.eventually_returns hafter)).mono ?_
    rintro limits ⟨hmember, hothers⟩ start collected span hspan
    have hrun := hothers start (found :: collected) span hspan
    rw [List.reverse_cons, List.append_assoc] at hrun
    exact hmember.bind hrun

/-- If one of them fails, the sequence is put back. -/
theorem FailInTurn.eventually_returns {matchers : List (Matcher κ)} {p : Int}
    (hrange : source.InRange p) :
    FailInTurn grammar source matchers p → Limits.Eventually fun limits =>
      ∀ start collected, (Behaviour.sequenceFrom start collected (matchers.map fun matcher =>
        matcher.behave grammar limits.rounds limits.nesting)).Returns source p none start
  | .first h => by
    refine (h.eventually_returns hrange).mono fun limits hmember start collected => ?_
    exact hmember.bind ((Attempt.returns_seek start).bind (Attempt.returns_pure _))
  | .later h hrest => by
    have hafter := (h.bounds hrange).2.2
    refine ((h.eventually_returns hrange).and (hrest.eventually_returns hafter)).mono ?_
    rintro limits ⟨hmember, hothers⟩ start collected
    exact hmember.bind (hothers start _)

/-- The rounds of a repetition come to its end, with what they have collected. -/
theorem Repeats.eventually_returns {matcher : Matcher κ} {most : Option Int} {count : Nat}
    {p q : Int} {founds : List Match} {stalled : Bool} (hrange : source.InRange p) :
    Repeats grammar source matcher most count p founds q stalled →
      ∃ rounds, Limits.Eventually fun limits => ∀ limit, rounds ≤ limit →
        ∀ least start collected outcome r,
          (Behaviour.endRepetition least start stalled (founds.reverse ++ collected)).Returns
            source q outcome r →
          (Behaviour.roundsLeft (matcher.behaviour grammar limits) least start most limit count
            collected).Returns source p outcome r
  | .full h => by
    refine ⟨0, Limits.Eventually.of_forall ?_⟩
    intro limits limit _ least start collected outcome r hend
    rw [Behaviour.roundsLeft_of_le h]
    exact hend
  | @Repeats.failed _ _ _ _ most _ _ hroom h => by
    refine ⟨1, (h.eventually_returns hrange).mono ?_⟩
    intro limits hmember limit hlimit least start collected outcome r hend
    cases most with
    | some bound =>
      rw [Behaviour.roundsLeft_of_lt (hroom bound rfl)]
      exact hmember.bind hend
    | none =>
      obtain ⟨limit, rfl⟩ := Nat.exists_eq_add_of_le' hlimit
      rw [Behaviour.roundsLeft_none]
      exact Attempt.returns_position.bind (hmember.bind hend)
  | .stalled h hwidth => by
    have hbounds := h.bounds hrange
    refine ⟨1, (h.eventually_returns hrange).mono ?_⟩
    intro limits hmember limit hlimit least start collected outcome r hend
    obtain ⟨limit, rfl⟩ := Nat.exists_eq_add_of_le' hlimit
    rw [Behaviour.roundsLeft_none]
    refine Attempt.returns_position.bind (hmember.bind (Attempt.returns_position.bind ?_))
    rw [if_pos (hwidth.trans hbounds.1)]
    exact hend
  | @Repeats.more _ _ _ _ most _ _ _ found founds _ hroom h hwidth hrest => by
    -- as many rounds must be allowed as the derivation has, one for each of its rules
    obtain ⟨hstart, -, hafter⟩ := h.bounds hrange
    obtain ⟨rounds, hrounds⟩ := hrest.eventually_returns hafter
    refine ⟨rounds + 1, ((h.eventually_returns hrange).and hrounds).mono ?_⟩
    rintro limits ⟨hmember, hothers⟩ limit hlimit least start collected outcome r hend
    obtain ⟨limit, rfl⟩ := Nat.exists_eq_add_of_le' (Nat.le_trans (Nat.le_add_left 1 _) hlimit)
    rw [List.reverse_cons, List.append_assoc] at hend
    have hrun := hothers limit (Nat.le_of_succ_le_succ hlimit) least start (found :: collected)
      outcome r hend
    cases most with
    | some bound =>
      rw [Behaviour.roundsLeft_of_lt (hroom bound rfl)]
      exact hmember.bind hrun
    | none =>
      rw [Behaviour.roundsLeft_none]
      refine Attempt.returns_position.bind (hmember.bind (Attempt.returns_position.bind ?_))
      rw [if_neg (by rw [← hstart]; exact hwidth rfl)]
      exact hrun

end

/-- Within limits that are wide enough, a matcher returns what it is judged to do. -/
theorem Judged.eventually_returns {matcher : Matcher κ} {p : Int} {outcome : Option Match}
    (hrange : source.InRange p) (h : Judged grammar source matcher p outcome) :
    Limits.Eventually fun limits => (matcher.behaviour grammar limits).Returns source p outcome
      (Match.stopFrom p outcome) := by
  cases outcome with
  | none => exact Fails.eventually_returns hrange h
  | some found => exact Succeeds.eventually_returns hrange h

/-! ## Matchers without calls

Their runs end, so that every one of them is judged to succeed or to fail. -/

namespace Matcher

/-- Where there is nothing to call, there are no calls. -/
theorem plain (matcher : Matcher Empty) : matcher.Plain :=
  callsOnly_of_forall nofun matcher

section Plain

variable {matcher : Matcher κ}

/-- What a run returns within any limits, the matcher is judged to do. -/
theorem Plain.sound (h : matcher.Plain) (source : Text) (limits : Limits) :
    (matcher.behaviour grammar limits).Sound grammar source matcher :=
  behaviour_sound nofun nofun h limits

variable {progress : Progress} {limits : Limits}

theorem Plain.exists_returned (h : matcher.Plain) (hrange : source.InRange progress.cursor)
    (hnesting : matcher.depth ≤ limits.nesting) (hrounds : source.length < limits.rounds) :
    ∃ outcome progress',
      matcher.behaviour grammar limits source progress = (.returned outcome, progress') := by
  have hkeeps : (matcher.behaviour grammar limits).Keeps False source :=
    h.behave_keeps hrounds hnesting
  obtain ⟨outcome, progress', hrun, -⟩ := (hkeeps progress hrange).exists_returned
    (fun _ _ hraised => hraised) (fun _ hgaveUp => hgaveUp)
  exact ⟨outcome, progress', hrun⟩

/-- Within wide limits a run returns what the matcher is judged to do. -/
theorem Plain.returns_of_judged (h : matcher.Plain) {p : Int} {outcome : Option Match}
    (hrange : source.InRange p) (hnesting : matcher.depth ≤ limits.nesting)
    (hrounds : source.length < limits.rounds)
    (hjudged : Judged grammar source matcher p outcome) :
    (matcher.behaviour grammar limits).Returns source p outcome (Match.stopFrom p outcome) := by
  intro journal
  have hrange' : source.InRange (Progress.mk p journal).cursor := hrange
  obtain ⟨outcome', progress', hrun⟩ : ∃ outcome' progress',
      matcher.behaviour grammar limits source ⟨p, journal⟩ = (.returned outcome', progress') :=
    h.exists_returned hrange' hnesting hrounds
  obtain ⟨limits', hle, hreturns⟩ := (hjudged.eventually_returns hrange).exists_ge limits
  obtain ⟨journal', hrun'⟩ := hreturns journal
  -- wider limits make no difference to a run that has returned
  have hsame := (behaviour_eq_of_le hle hrun).symm.trans hrun'
  exact ⟨journal', hrun.trans hsame⟩

end Plain

/-! Where there is nothing to call at all, there is nothing to say of the grammar. -/

section Empty

variable {matcher : Matcher Empty} {source : Text} {progress : Progress} {limits : Limits}

theorem plain_sound (matcher : Matcher Empty) (source : Text) (limits : Limits) :
    (matcher.behaviour .plain limits).Sound .plain source matcher :=
  matcher.plain.sound source limits

theorem plain_exists_returned (hrange : source.InRange progress.cursor)
    (hnesting : matcher.depth ≤ limits.nesting) (hrounds : source.length < limits.rounds) :
    ∃ outcome progress',
      matcher.behaviour .plain limits source progress = (.returned outcome, progress') :=
  matcher.plain.exists_returned hrange hnesting hrounds

theorem plain_returned_of_judged (hrange : source.InRange progress.cursor)
    (hnesting : matcher.depth ≤ limits.nesting) (hrounds : source.length < limits.rounds)
    (outcome : Option Match) (h : Judged .plain source matcher progress.cursor outcome) :
    ∃ journal, matcher.behaviour .plain limits source progress
      = (.returned outcome, ⟨Match.stopFrom progress.cursor outcome, journal⟩) :=
  matcher.plain.returns_of_judged hrange hnesting hrounds h progress.journal

end Empty

end Matcher

end CursorGrammar
