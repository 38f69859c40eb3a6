import CursorGrammar.Proofs.Refinement
import CursorGrammar.Proofs.Rounds
import Mathlib.Data.Stream.Init

set_option autoImplicit false

/-! # Stalled repetitions

A repetition without an upper bound takes no more rounds once one has left the cursor where it was,
and then does not ask whether the rounds are enough. If what a call does depends on nothing but the
cursor, then every further round would be the same. So it comes to the same end as a repetition with
an upper bound, if that leaves room for the characters left and for the rounds asked for; the bound
only fills up with copies of the last match. -/

namespace CursorGrammar

/-- The first elements of a list that is continued with copies of its last one. -/
theorem take_append_const {α : Type} (xs : List α) (x : α) (n : Nat) :
    ((xs ++ [x]) ++ₛ Stream'.const x).take (xs.length + n) = xs ++ List.replicate n x := by
  have hconst : [x] ++ₛ Stream'.const x = Stream'.const x := (Stream'.const_eq x).symm
  have htake : (Stream'.const x).take n = List.replicate n x := by
    induction n with
    | zero => rfl
    | succ n ih => rw [Stream'.take_succ, Stream'.tail_const, ih, List.replicate_succ]; rfl
  rw [Stream'.append_append_stream, hconst, ← Stream'.append_take, htake]

namespace Behaviour

variable {behaviour : Behaviour} {source : Text} {progress : Progress}
variable {earlier : List Round} {last : Round}

/-- Inside the text, what a call does depends on nothing but the cursor. -/
def Reproducible (source : Text) (behaviour : Behaviour) : Prop :=
  ∀ {before after : Progress} {outcome : Option Match}, source.InRange before.cursor →
    behaviour source before = (.returned outcome, after) →
    behaviour.Returns source before.cursor outcome after.cursor

/-- The last round is a call of the behaviour. -/
theorem RepeatsUntil.last_call (h : behaviour.RepeatsUntil source progress earlier last) :
    behaviour source last.before = (.returned last.outcome, last.after) := by
  induction h with
  | last hcall _ => exact hcall
  | next _ _ _ ih => exact ih

/-! ## Rounds up to a bound -/

section Bounded

variable {least start p q : Int} {outcome : Option Match} {founds : List Match}

/-- If the bound leaves room for the earlier rounds, they are the same as without it. -/
theorem RepeatsUntil.boundedRounds_eq (h : behaviour.RepeatsUntil source progress earlier last)
    (least start : Int) (rounds : Nat) (founds : List Match) :
    boundedRounds behaviour least start (earlier.length + rounds) founds source progress
      = boundedRounds behaviour least start rounds ((collected earlier).reverse ++ founds)
          source last.before := by
  induction h generalizing founds with
  | last => rw [List.length_nil, Nat.zero_add]; rfl
  | @next before after found earlier last hcall _ _ ih =>
    rw [List.length_cons, Nat.add_right_comm]
    show Attempt.andThen behaviour _ source before = _
    rw [Attempt.andThen_of_returned hcall]
    refine (ih (found :: founds)).trans ?_
    simp [collected]

/-- A behaviour that gives nothing takes no further rounds. -/
theorem boundedRounds_returns_of_none (h : behaviour.Returns source p none p) (rounds : Nat)
    (hend : (endRepetition least start false founds).Returns source p outcome q) :
    (boundedRounds behaviour least start rounds founds).Returns source p outcome q := by
  cases rounds with
  | zero => exact hend
  | succ rounds => exact h.bind hend

/-- A behaviour that always matches nothing takes all the rounds there are. -/
theorem boundedRounds_returns_of_some {found : Match}
    (h : behaviour.Returns source p (some found) p) (rounds : Nat)
    (hend : (endRepetition least start false (List.replicate rounds found ++ founds)).Returns
      source p outcome q) :
    (boundedRounds behaviour least start rounds founds).Returns source p outcome q := by
  induction rounds generalizing founds with
  | zero => exact hend
  | succ rounds ih =>
    rw [List.replicate_succ', List.append_assoc] at hend
    exact h.bind (ih hend)

/-- A repetition that has not stalled returns a match of all that has been collected, or nothing. -/
theorem exists_endRepetition_returns {span : Span} (source : Text) (least : Int)
    (founds : List Match) (hspan : span.Covers start p) :
    ∃ outcome q, (endRepetition least start false founds.reverse).Returns source p outcome q ∧
      ∀ found, outcome = some found → found.value = .ofMatches founds := by
  by_cases henough : false = true ∨ least ≤ founds.length
  · refine ⟨_, p, endRepetition_returns henough hspan, ?_⟩
    rintro found ⟨⟩
    rfl
  · exact ⟨none, start, endRepetition_returns_none henough, nofun⟩

end Bounded

section Runs

variable {q : Int} {outcome : Option Match}

/-- What a repetition without an upper bound returns is how it ends after its last round. -/
theorem RepeatsUntil.unbounded_returned
    (h : behaviour.RepeatsUntil source progress earlier last) (least : Int) {limit : Nat}
    (hlimit : earlier.length < limit)
    (hend : (endRepetition least progress.cursor last.outcome.isSome
      (collected (earlier ++ [last])).reverse).Returns source last.after.cursor outcome q) :
    ∃ journal, quantifier limit behaviour least none source progress
      = (.returned outcome, ⟨q, journal⟩) := by
  obtain ⟨journal, hrun⟩ := hend last.after.journal
  have hended := h.ended hlimit least progress.cursor []
  rw [List.append_nil] at hended
  exact ⟨journal, hended.trans hrun⟩

/-- What a repetition with an upper bound returns is what its rounds after the earlier ones do. -/
theorem RepeatsUntil.bounded_returned
    (h : behaviour.RepeatsUntil source progress earlier last) (least : Int) {bound : Int}
    {rounds : Nat} (hbound : bound.toNat = earlier.length + rounds) (limit : Nat)
    (hrest : (boundedRounds behaviour least progress.cursor rounds
      (collected earlier).reverse).Returns source last.before.cursor outcome q) :
    ∃ journal, quantifier limit behaviour least (some bound) source progress
      = (.returned outcome, ⟨q, journal⟩) := by
  obtain ⟨journal, hrun⟩ := hrest last.before.journal
  have hrounds := h.boundedRounds_eq least progress.cursor rounds []
  rw [List.append_nil, ← hbound] at hrounds
  exact ⟨journal, hrounds.trans hrun⟩

end Runs

/-! ## With and without a bound -/

/-- What a repetition returns that consists of these rounds, and what it returns up to a bound. -/
structure AgreesUpTo (bound : Int) (earlier : List Round) (last : Round)
    (outcome outcome' : Option Match) : Prop where
  /-- Both are nothing, or matches with the same span. -/
  span : outcome.map Match.span = outcome'.map Match.span
  /-- Without the bound, a match holds the matches of all the rounds. -/
  value : ∀ found, outcome = some found →
    found.value = .ofMatches (collected (earlier ++ [last]))
  /-- If the last round has given nothing, the bound makes no difference. -/
  failed : last.outcome = none → outcome = outcome'
  /-- If it has stalled, both are matches. Up to the bound it holds as many matches as the bound
      allows: those of all the rounds, continued with copies of the last one. -/
  stalled : ∀ found, last.outcome = some found → ∃ span,
    outcome = some ⟨.ofMatches (collected (earlier ++ [last])), span⟩ ∧
    outcome' = some ⟨.ofMatches
      ((collected (earlier ++ [last]) ++ₛ Stream'.const found).take bound.toNat), span⟩

/-- Where the last round has given nothing, what is returned agrees with itself. -/
theorem agreesUpTo_of_failed {bound : Int} {outcome : Option Match} (hlast : last.outcome = none)
    (hvalue : ∀ found, outcome = some found → found.value = .ofMatches (collected earlier)) :
    AgreesUpTo bound earlier last outcome outcome := by
  have hcollected := collected_append_last earlier last
  rw [hlast, Option.toList_none, List.append_nil] at hcollected
  refine ⟨rfl, ?_, fun _ => rfl, ?_⟩
  · rw [hcollected]
    exact hvalue
  · rw [hlast]
    nofun

/-- Where it has stalled, what is returned agrees with as many copies of its match as make up the
    bound. -/
theorem RepeatsUntil.agreesUpTo_of_stalled
    (h : behaviour.RepeatsUntil source progress earlier last) {found : Match}
    (hlast : last.outcome = some found) {bound : Int} {rounds : Nat}
    (hbound : bound.toNat = earlier.length + rounds) (span : Span) :
    AgreesUpTo bound earlier last (some ⟨.ofMatches (collected (earlier ++ [last])), span⟩)
      (some ⟨.ofMatches (collected earlier ++ List.replicate rounds found), span⟩) := by
  have hcollected := collected_append_last earlier last
  rw [hlast, Option.toList_some] at hcollected
  refine ⟨rfl, ?_, ?_, ?_⟩
  · rintro _ ⟨⟩
    rfl
  · rw [hlast]
    nofun
  · rintro _ hfound
    cases hlast.symm.trans hfound
    rw [hcollected, hbound, ← h.length_collected, take_append_const]
    exact ⟨span, rfl, rfl⟩

/-- Of a behaviour that advances and can be reproduced, a repetition without an upper bound agrees
    with one with a bound that leaves room for the rounds asked for and for the characters left, and
    both leave the cursor at the same place. -/
theorem quantifier_agrees (hadvances : behaviour.Advances source)
    (hreproducible : behaviour.Reproducible source) (hrange : source.InRange progress.cursor)
    {limit : Nat} (hlimit : source.length < limit) {least bound : Int}
    (hbound : max least (source.length - progress.cursor) ≤ bound) :
    ∃ earlier last outcome outcome' cursor journal journal',
      behaviour.RepeatsUntil source progress earlier last ∧
      quantifier limit behaviour least none source progress
        = (.returned outcome, ⟨cursor, journal⟩) ∧
      quantifier limit behaviour least (some bound) source progress
        = (.returned outcome', ⟨cursor, journal'⟩) ∧
      AgreesUpTo bound earlier last outcome outcome' := by
  obtain ⟨hleast, hlength⟩ := Int.max_le.1 hbound
  obtain ⟨earlier, last, hrounds⟩ := hadvances.exists_repeatsUntil hrange
  obtain ⟨hforward, -, hlast, hstays⟩ := hrounds.bounds hadvances hrange
  obtain ⟨rounds, hbounded⟩ : ∃ rounds, bound.toNat = earlier.length + rounds :=
    Nat.exists_eq_add_of_le (by have := hlast.2; omega)
  have hunbounded : earlier.length < limit := by
    have := hlast.2
    have := hrange.1
    omega
  have hagain := hreproducible hlast hrounds.last_call
  obtain ⟨span, hspan⟩ := Span.exists_covers (q := last.before.cursor) hrange.1 (by omega)
  rw [hstays] at hagain
  cases houtcome : last.outcome with
  | none =>
    rw [houtcome] at hagain
    have hcollected := collected_append_last earlier last
    rw [houtcome, Option.toList_none, List.append_nil] at hcollected
    obtain ⟨outcome, cursor, hend, hvalue⟩ :=
      exists_endRepetition_returns source least (collected earlier) hspan
    obtain ⟨journal, hrun⟩ := hrounds.unbounded_returned least hunbounded
      (by rw [houtcome, hcollected, hstays]; exact hend)
    obtain ⟨journal', hrun'⟩ := hrounds.bounded_returned least hbounded limit
      (boundedRounds_returns_of_none hagain rounds hend)
    exact ⟨earlier, last, outcome, outcome, cursor, journal, journal', hrounds, hrun, hrun',
      agreesUpTo_of_failed houtcome hvalue⟩
  | some found =>
    rw [houtcome] at hagain
    -- with a bound it is never asked whether a round has stalled, so the copies have to be enough
    have henough : least ≤ (collected earlier ++ List.replicate rounds found).length := by
      rw [List.length_append, List.length_replicate, hrounds.length_collected]
      omega
    have hend : (endRepetition least progress.cursor false _).Returns source _ _ _ :=
      endRepetition_returns (Or.inr henough) hspan
    rw [List.reverse_append, List.reverse_replicate] at hend
    obtain ⟨journal, hrun⟩ := hrounds.unbounded_returned least hunbounded
      (by rw [houtcome, hstays]; exact endRepetition_returns (Or.inl rfl) hspan)
    obtain ⟨journal', hrun'⟩ := hrounds.bounded_returned least hbounded limit
      (boundedRounds_returns_of_some hagain rounds hend)
    exact ⟨earlier, last, _, _, _, journal, journal', hrounds, hrun, hrun',
      hrounds.agreesUpTo_of_stalled houtcome hbounded span⟩

end Behaviour

/-! ## Matchers without calls -/

namespace Matcher

variable {source : Text} {progress : Progress}

/-- What a run does depends on nothing but the cursor: it is what the matcher is judged to do. -/
theorem plain_reproducible {matcher : Matcher Empty} {limits : Limits}
    (hnesting : matcher.depth ≤ limits.nesting) (hrounds : source.length < limits.rounds) :
    (matcher.behaviour .plain limits).Reproducible source := by
  intro before after outcome hrange hcall journal
  obtain ⟨hjudged, hcursor⟩ := (plain_sound matcher source limits before hrange).of_returned hcall
  have hrange' : source.InRange (Progress.mk before.cursor journal).cursor := hrange
  rw [hcursor]
  exact plain_returned_of_judged hrange' hnesting hrounds outcome hjudged

end Matcher

end CursorGrammar
