import CursorGrammar.Probe
import CursorGrammar.Proofs.Agreement
import CursorGrammar.Proofs.Decided
import CursorGrammar.Proofs.InTurn

set_option autoImplicit false

/-! # Options inside sequences

An option calls its matcher once and puts the cursor back, wherever the matcher has left it. So the
members of a sequence that follow the option begin where it has begun, and the option adds a match
that covers nothing. In all else the sequence is as it would be without the option, whatever the
matcher of the option does. -/

namespace CursorGrammar

variable {κ : Type} {grammar : Grammar κ} {source : Text} {p q : Int}

/-! ## Members in turn -/

/-- Matchers without calls succeed in turn, or some first one of them fails. -/
theorem decidedInTurn_of_plain {members : List (Matcher κ)} (h : ∀ m ∈ members, m.Plain)
    (hrange : source.InRange p) : DecidedInTurn grammar source members p := by
  induction members generalizing p with
  | nil => exact Or.inl ⟨[], p, .nil⟩
  | cons first rest ih =>
    rw [List.forall_mem_cons] at h
    exact .cons (h.1.exists_judged hrange) fun found hfound => ih h.2 (hfound.bounds hrange).2.2

namespace Behaviour

/-- Inside the text the behaviour returns whatever the matcher is judged to do, with the cursor
    where the match ends or, if there is none, where it was. -/
def Complete (grammar : Grammar κ) (source : Text) (matcher : Matcher κ) (behaviour : Behaviour) :
    Prop :=
  ∀ p outcome, source.InRange p → Judged grammar source matcher p outcome →
    behaviour.Returns source p outcome (Match.stopFrom p outcome)

section Sequences

variable {members : List (Matcher κ)} {inner : Matcher κ → Behaviour}
variable (hinner : ∀ m ∈ members, (inner m).Complete grammar source m)
variable (hrange : source.InRange p) (start : Int)

include hinner hrange

/-- Where members succeed in turn, a sequence goes on with the others. -/
theorem sequenceFrom_of_succeedInTurn {founds : List Match}
    (h : SucceedInTurn grammar source members p founds q) (collected : List Match)
    (others : List Behaviour) (journal : List Entry) :
    ∃ journal', sequenceFrom start collected (members.map inner ++ others) source ⟨p, journal⟩
      = sequenceFrom start (founds.reverse ++ collected) others source ⟨q, journal'⟩ := by
  induction members generalizing p founds collected journal with
  | nil =>
    cases h
    exact ⟨journal, rfl⟩
  | cons first rest ih =>
    rw [List.forall_mem_cons] at hinner
    cases h with
    | @cons _ _ _ _ found founds hfound hrest =>
      have hbounds := hfound.bounds hrange
      obtain ⟨journal', hcall⟩ := hinner.1 p (some found) hrange hfound journal
      obtain ⟨journal'', hrun⟩ := ih hinner.2 hbounds.2.2 hrest (found :: collected) journal'
      rw [List.reverse_cons, List.append_assoc]
      exact ⟨journal'', (Attempt.andThen_of_returned hcall).trans hrun⟩

/-- Where one of the members fails, the sequence is put back, whatever the others are. -/
theorem sequenceFrom_of_failInTurn (h : FailInTurn grammar source members p)
    (collected : List Match) (others : List Behaviour) (journal : List Entry) :
    ∃ journal', sequenceFrom start collected (members.map inner ++ others) source ⟨p, journal⟩
      = (.returned none, ⟨start, journal'⟩) := by
  induction members generalizing p collected journal with
  | nil => cases h
  | cons first rest ih =>
    rw [List.forall_mem_cons] at hinner
    cases h with
    | first hfails =>
      obtain ⟨journal', hcall⟩ := hinner.1 p none hrange hfails journal
      exact ⟨_, Attempt.andThen_of_returned hcall⟩
    | @later _ _ _ found hfound hrest =>
      have hbounds := hfound.bounds hrange
      obtain ⟨journal', hcall⟩ := hinner.1 p (some found) hrange hfound journal
      obtain ⟨journal'', hrun⟩ := ih hinner.2 hbounds.2.2 hrest (found :: collected) journal'
      exact ⟨journal'', (Attempt.andThen_of_returned hcall).trans hrun⟩

/-- Where members succeed in turn and there are no others, the sequence ends with their matches. -/
theorem sequenceFrom_ends {founds : List Match} {span : Span}
    (h : SucceedInTurn grammar source members p founds q) (hspan : span.Covers start q)
    (collected : List Match) (journal : List Entry) :
    ∃ journal', sequenceFrom start collected (members.map inner) source ⟨p, journal⟩
      = (.returned (some ⟨.ofMatches (collected.reverse ++ founds), span⟩), ⟨q, journal'⟩) := by
  obtain ⟨journal', hrun⟩ :=
    sequenceFrom_of_succeedInTurn hinner hrange start h collected [] journal
  have hend : (sequenceFrom start (founds.reverse ++ collected) []).Returns source q
      (some ⟨.ofMatches (founds.reverse ++ collected).reverse, span⟩) q :=
    (Attempt.returns_matchFrom hspan).bind (Attempt.returns_pure _)
  rw [List.reverse_append, List.reverse_reverse] at hend
  rw [List.append_nil] at hrun
  rw [hrun]
  exact hend journal'

end Sequences

/-- Where the behaviour returns, a sequence goes on from the same place after the option, and has
    collected a match that covers nothing. -/
theorem sequenceFrom_of_optional {behaviour : Behaviour} {progress progress' : Progress}
    {outcome : Option Match} (hstart : 0 ≤ progress.cursor)
    (hcall : behaviour source progress = (.returned outcome, progress')) (start : Int)
    (collected : List Match) (others : List Behaviour) :
    ∃ extra journal, extra.span.stop = extra.span.start ∧
      sequenceFrom start collected (optional behaviour :: others) source progress
        = sequenceFrom start (extra :: collected) others source ⟨progress.cursor, journal⟩ := by
  obtain ⟨span, hspan⟩ := Span.exists_covers hstart (Int.le_refl progress.cursor)
  obtain ⟨journal, hrun⟩ := optional_of_returned hcall hspan
  exact ⟨_, journal, hspan.2.trans hspan.1.symm, Attempt.andThen_of_returned hrun⟩

/-- Where the behaviour is given up, so is the sequence. -/
theorem sequenceFrom_of_exhausted {behaviour : Behaviour} {progress progress' : Progress}
    (hcall : behaviour source progress = (.exhausted, progress')) (start : Int)
    (collected : List Match) (others : List Behaviour) :
    sequenceFrom start collected (optional behaviour :: others) source progress
      = (.exhausted, progress') := by
  have hoption : optional behaviour source progress = (.exhausted, progress') :=
    Attempt.andThen_of_exhausted hcall
  exact Attempt.andThen_of_exhausted hoption

end Behaviour

/-! ## Sequences with an option -/

/-- The matches that the second value holds are those of the first without the one at this index,
    which covers nothing. -/
def Value.PaddedAt (index : Nat) (value value' : Value) : Prop :=
  ∃ earlier later extra, earlier.length = index ∧ extra.span.stop = extra.span.start ∧
    value = .ofMatches (earlier ++ extra :: later) ∧ value' = .ofMatches (earlier ++ later)

namespace Behaviour

section Options

variable {front back : List (Matcher κ)} {inner : Matcher κ → Behaviour} {behaviour : Behaviour}
variable (hback : ∀ m ∈ back, (inner m).Complete grammar source m)

include hback

/-- Where the members in front have succeeded and the behaviour of the option returns, the sequence
    settles on the like of what it is judged to do without the option. -/
theorem sequenceFrom_optional_judged {first : List Match} {journal : List Entry}
    {after : Progress} {outcome : Option Match} (hrange : source.InRange p)
    (hfirst : SucceedInTurn grammar source front p first q)
    (hdecided : DecidedInTurn grammar source back q)
    (hcall : behaviour source ⟨q, journal⟩ = (.returned outcome, after)) :
    ∃ outcome outcome' journal',
      sequenceFrom p first.reverse (optional behaviour :: back.map inner) source ⟨q, journal⟩
        = (.returned outcome, ⟨Match.stopFrom p outcome, journal'⟩) ∧
      Judged grammar source (.seq (front ++ back)) p outcome' ∧
      Match.Alike (Value.PaddedAt front.length) outcome outcome' := by
  obtain ⟨hle, hrange'⟩ := hfirst.bounds hrange
  obtain ⟨extra, journal', hwidth, hoption⟩ :=
    sequenceFrom_of_optional hrange'.1 hcall p first.reverse (back.map inner)
  rcases hdecided with ⟨second, r, hsecond⟩ | hfails
  · obtain ⟨hle', hrange''⟩ := hsecond.bounds hrange'
    obtain ⟨span, hspan⟩ := Span.exists_covers hrange.1 (Int.le_trans hle hle')
    have hturn := succeedInTurn_append_iff.2 ⟨first, second, q, rfl, hfirst, hsecond⟩
    obtain ⟨journal'', hends⟩ := sequenceFrom_ends hback hrange' p hsecond hspan
      (extra :: first.reverse) journal'
    rw [List.reverse_cons, List.reverse_reverse, List.append_assoc] at hends
    refine ⟨some ⟨.ofMatches (first ++ extra :: second), span⟩,
      some ⟨.ofMatches (first ++ second), span⟩, journal'', ?_, .seq hturn hspan, rfl,
      first, second, extra, hfirst.length_eq, hwidth, rfl, rfl⟩
    rw [hoption, hends, Match.stopFrom, hspan.2]
    rfl
  · have hfails' := failInTurn_append_iff.2 (Or.inr ⟨first, q, hfirst, hfails⟩)
    obtain ⟨journal'', hends⟩ := sequenceFrom_of_failInTurn hback hrange' p hfails
      (extra :: first.reverse) [] journal'
    rw [List.append_nil] at hends
    exact ⟨none, none, journal'', hoption.trans hends, .seq hfails', trivial⟩

/-- A sequence with an option settles on the like of what it is judged to do without the option,
    unless the behaviour of the option is given up, and the sequence with it. -/
theorem sequence_optional_judged {progress : Progress}
    (hfront : ∀ m ∈ front, (inner m).Complete grammar source m)
    (hrange : source.InRange progress.cursor)
    (hdecided : DecidedInTurn grammar source front progress.cursor)
    (hdecided' : ∀ q, source.InRange q → DecidedInTurn grammar source back q)
    (hraises : ∀ before fault after, source.InRange before.cursor →
      behaviour source before ≠ (.raised fault, after)) :
    (∃ outcome outcome',
      (sequence (front.map inner ++ optional behaviour :: back.map inner)).Settles source progress
        outcome ∧
      Judged grammar source (.seq (front ++ back)) progress.cursor outcome' ∧
      Match.Alike (Value.PaddedAt front.length) outcome outcome') ∨
    ∃ before, source.InRange before.cursor ∧ (behaviour source before).1 = .exhausted ∧
      (sequence (front.map inner ++ optional behaviour :: back.map inner) source progress).1
        = .exhausted := by
  rcases hdecided with ⟨first, q, hfirst⟩ | hfails
  · have hrange' := (hfirst.bounds hrange).2
    obtain ⟨journal, hrun⟩ := sequenceFrom_of_succeedInTurn hfront hrange progress.cursor hfirst []
      (optional behaviour :: back.map inner) progress.journal
    rw [List.append_nil] at hrun
    rcases hcall : behaviour source ⟨q, journal⟩ with ⟨ending, after⟩
    cases ending with
    | returned outcome =>
      obtain ⟨outcome, outcome', journal', hends, hjudged, halike⟩ :=
        sequenceFrom_optional_judged hback hrange hfirst (hdecided' q hrange') hcall
      exact Or.inl ⟨outcome, outcome', ⟨journal', hrun.trans hends⟩, hjudged, halike⟩
    | raised fault => exact absurd hcall (hraises _ fault after hrange')
    | exhausted =>
      have hends := sequenceFrom_of_exhausted hcall progress.cursor first.reverse (back.map inner)
      exact Or.inr ⟨⟨q, journal⟩, hrange', congrArg Prod.fst hcall,
        congrArg Prod.fst (hrun.trans hends)⟩
  · have hfails' : FailInTurn grammar source (front ++ back) progress.cursor :=
      failInTurn_append_iff.2 (Or.inl hfails)
    obtain ⟨journal, hrun⟩ := sequenceFrom_of_failInTurn hfront hrange progress.cursor hfails []
      (optional behaviour :: back.map inner) progress.journal
    exact Or.inl ⟨none, none, ⟨journal, hrun⟩, .seq hfails', trivial⟩

end Options

end Behaviour

namespace Matcher

theorem Plain.complete {matcher : Matcher κ} {limits : Limits} (h : matcher.Plain)
    (hnesting : matcher.depth ≤ limits.nesting) (hrounds : source.length < limits.rounds) :
    (matcher.behaviour grammar limits).Complete grammar source matcher :=
  fun _ _ hrange hjudged => h.returns_of_judged hrange hnesting hrounds hjudged

variable {front back : List (Matcher κ)} {nesting rounds : Nat} {progress : Progress}

end Matcher

end CursorGrammar
