import CursorGrammar.Proofs.Calls
import CursorGrammar.Proofs.Congruence
import CursorGrammar.Proofs.Containment
import CursorGrammar.Proofs.WholeText

set_option autoImplicit false

/-! # Matches that end with the text

Parsing a whole text asks whether the run has left the cursor at the end of the text or beyond. What
the match says of its own end need not be the same, as a user's matcher may report any span and move
the cursor anywhere. It is the same if two things hold: the match of a tree ends where the tree
leaves the cursor, and no call takes the cursor beyond the end of the text. For the first only those
calls matter that have nothing but alternations above them; whatever is below a sequence, a
repetition or an option may report what it likes. -/

namespace CursorGrammar

/-! ## Attempts that do not go beyond the end -/

namespace Attempt

variable {α β : Type} {source : Text}

/-- If the cursor is not beyond the end of the text, it is not when the attempt returns. Before the
    beginning of the text it may be anywhere. -/
def StaysWithin (source : Text) (attempt : Attempt α) : Prop :=
  ∀ progress : Progress, progress.cursor ≤ source.length →
    attempt.Ensures source progress
      (.ifReturned fun _ progress' => progress'.cursor ≤ source.length)

theorem StaysWithin.bind {attempt : Attempt α} {next : α → Attempt β}
    (h : attempt.StaysWithin source) (hnext : ∀ value, (next value).StaysWithin source) :
    (attempt >>= next).StaysWithin source := by
  intro progress hwithin
  exact (h progress hwithin).bind (fun value progress' => hnext value progress')
    (fun _ _ _ => trivial) (fun _ _ => trivial)

theorem staysWithin_pure (value : α) : (pure value : Attempt α).StaysWithin source :=
  fun _ hwithin => hwithin

theorem staysWithin_exhaust : (exhaust : Attempt α).StaysWithin source :=
  fun _ _ => trivial

/-- What comes after reading the cursor may rely on it not being beyond the end. -/
theorem staysWithin_position_bind {next : Int → Attempt β}
    (h : ∀ start : Int, start ≤ source.length → (next start).StaysWithin source) :
    (position >>= next).StaysWithin source :=
  fun progress hwithin => h progress.cursor hwithin progress hwithin

theorem staysWithin_note (event : Event) : (note event).StaysWithin source :=
  fun _ hwithin => hwithin

theorem staysWithin_seek {cursor : Int} (hcursor : cursor ≤ source.length) :
    (seek cursor).StaysWithin source :=
  fun _ _ => hcursor

theorem staysWithin_lookahead (window : Option Int) : (lookahead window).StaysWithin source :=
  fun _ hwithin => hwithin

end Attempt

/-- Also from before the beginning of the text, what is accepted does not reach beyond its end. -/
theorem Feed.accepts_stop_le {source : Text} {cursor : Int} {token : Text} {length : Option Int}
    (hwithin : cursor ≤ source.length)
    (haccepts : accepts ⟨source, cursor⟩ token length = true) :
    cursor + tokenLength token length ≤ source.length := by
  unfold accepts at haccepts
  simp only [Bool.and_eq_true, beq_iff_eq, Text.length_slice] at haccepts
  obtain ⟨hsize, -⟩ := haccepts
  refine Int.not_lt.1 fun hbeyond => ?_
  -- the segment ends with the text, and so it is shorter than what is compared
  rw [Text.position_of_ge (by omega)] at hsize
  by_cases hneg : cursor < 0
  · omega
  · rw [Text.position_of_mem (by omega) hwithin] at hsize
    omega

namespace Attempt

variable {source : Text}

theorem staysWithin_consume (token : Text) (length : Option Int) :
    (consume token length).StaysWithin source := by
  intro progress hwithin
  show Post.Holds _ (consume token length source progress)
  unfold consume Feed.consume
  by_cases haccepts : Feed.accepts ⟨source, progress.cursor⟩ token length = true
  · rw [if_pos haccepts]
    exact Feed.accepts_stop_le hwithin haccepts
  · rw [if_neg haccepts]
    exact hwithin

theorem staysWithin_matchBetween (value : Value) (start stop : Int) :
    (matchBetween value start stop).StaysWithin source := by
  intro progress hwithin
  unfold matchBetween
  cases Span.ofBounds? start stop with
  | none => exact trivial
  | some span => exact hwithin

theorem staysWithin_matchFrom (value : Value) (start : Int) :
    (matchFrom value start).StaysWithin source :=
  staysWithin_position_bind fun stop _ => staysWithin_matchBetween value start stop

end Attempt

namespace Behaviour

open Attempt

variable {source : Text}

/-! ## Behaviours that do not go beyond the end -/

/-- Matchers that are called within the text only put the cursor back to there. -/
theorem staysWithin_congruence {start : Int} (hstart : start ≤ source.length) :
    Congruence (fun _ attempt _ => attempt.StaysWithin source) start where
  pure := staysWithin_pure
  bind := StaysWithin.bind
  position := fun _ hwithin => hwithin
  lookahead := staysWithin_lookahead
  consume := staysWithin_consume
  seek := staysWithin_seek hstart
  matchFrom value := staysWithin_matchFrom value start

theorem character_staysWithin (value : Text) : (character value).StaysWithin source :=
  staysWithin_position_bind fun _ hstart =>
    token_related (staysWithin_congruence hstart) (.text value) value (some 1)

theorem pattern_staysWithin (p : Pattern) : (pattern p).StaysWithin source := by
  refine (staysWithin_lookahead none).bind fun shown => ?_
  cases p.find shown with
  | none => exact staysWithin_pure none
  | some found =>
    exact staysWithin_position_bind fun _ hstart =>
      token_related (staysWithin_congruence hstart) (.text found) found (some found.length)

section Combinators

variable {ι : Type} {members : List ι} {inner : ι → Behaviour} {behaviour : Behaviour}

theorem sequence_staysWithin (h : ∀ i ∈ members, (inner i).StaysWithin source) :
    (sequence (members.map inner)).StaysWithin source :=
  staysWithin_position_bind fun _ hstart =>
    sequenceFrom_of_congruence (staysWithin_congruence hstart) h []

theorem alternation_staysWithin (h : ∀ i ∈ members, (inner i).StaysWithin source) :
    (alternation (members.map inner)).StaysWithin source :=
  alternation_of_congruence (staysWithin_congruence (Int.natCast_nonneg _)) h

theorem quantifier_staysWithin (h : behaviour.StaysWithin source) (limit : Nat) (least : Int)
    (most : Option Int) : (quantifier limit behaviour least most).StaysWithin source := by
  refine staysWithin_position_bind fun start hstart => ?_
  have hcongruence := staysWithin_congruence hstart
  cases most with
  | some most => exact boundedRounds_of_congruence hcongruence h most.toNat []
  | none => exact unboundedRounds_of_congruence hcongruence h staysWithin_exhaust limit []

theorem optional_staysWithin (h : behaviour.StaysWithin source) :
    (optional behaviour).StaysWithin source := by
  refine staysWithin_position_bind fun start hstart => h.bind fun outcome => ?_
  exact (staysWithin_seek hstart).bind fun _ =>
    some_matchFrom_related (staysWithin_congruence hstart) _

theorem observed_staysWithin (h : behaviour.StaysWithin source) (label : Text) :
    (observed label behaviour).StaysWithin source :=
  (staysWithin_note _).bind fun _ => h.bind fun outcome =>
    (staysWithin_note _).bind fun _ => staysWithin_pure outcome

end Combinators

/-! ## Behaviours whose matches end at the cursor -/

/-- Wherever the behaviour is called on the text, a match that it gives ends where it leaves the
    cursor. -/
def EndsAtCursor (source : Text) (behaviour : Behaviour) : Prop :=
  ∀ (progress progress' : Progress) (found : Match),
    behaviour source progress = (.returned (some found), progress') →
      found.span.stop = progress'.cursor

theorem endsAtCursor_iff {behaviour : Behaviour} :
    behaviour.EndsAtCursor source ↔ ∀ progress : Progress,
      behaviour.Ensures source progress (.ifReturned fun outcome progress' =>
        ∀ found, outcome = some found → found.span.stop = progress'.cursor) := by
  simp only [ensures_ifReturned_iff]
  constructor
  · rintro h progress _ progress' hrun found rfl
    exact h progress progress' found hrun
  · intro h progress progress' found hrun
    exact h progress (some found) progress' hrun found rfl

theorem Frames.endsAtCursor {behaviour : Behaviour} (h : behaviour.Frames source) :
    behaviour.EndsAtCursor source := by
  rw [endsAtCursor_iff]
  intro progress
  refine (h progress).mono ?_ (fun _ _ _ => trivial) (fun _ _ => trivial)
  rintro outcome progress' hframed found rfl
  exact hframed.2

/-- The match of an alternation is that of a branch, unmodified. -/
theorem alternation_endsAtCursor {behaviours : List Behaviour}
    (h : ∀ b ∈ behaviours, b.EndsAtCursor source) :
    (alternation behaviours).EndsAtCursor source := by
  rw [endsAtCursor_iff]
  induction behaviours with
  | nil =>
    intro progress found hnone
    cases hnone
  | cons first rest ih =>
    intro progress
    have hfirst := endsAtCursor_iff.1 (h first (List.mem_cons_self ..)) progress
    refine hfirst.bind ?_ (fun _ _ _ => trivial) (fun _ _ => trivial)
    intro outcome progress' hends
    cases outcome with
    | none => exact ih (fun b hb => h b (List.mem_cons_of_mem _ hb)) progress'
    | some found => exact hends

end Behaviour

/-! ## Matchers -/

section Matchers

variable {κ : Type} {grammar : Grammar κ} {source : Text} {matcher : Matcher κ}

/-- If no call takes the cursor beyond the end that behaves in a way of its own, no matcher does. -/
theorem Matcher.behaviour_staysWithin {allowed : κ → Prop}
    (hclosed : grammar.ClosedUnder allowed)
    (hnative : ∀ target behaviour, allowed target → grammar target = .native behaviour →
      behaviour.StaysWithin source)
    (hcalls : matcher.CallsOnly allowed) (limits : Limits) :
    (matcher.behaviour grammar limits).StaysWithin source := by
  refine behave_induction (motive := fun _ behaviour => behaviour.StaysWithin source) hclosed
    ?_ ?_ ?_ ?_ ?_ ?_ ?_ ?_ ?_ hnative limits.nesting matcher hcalls
  · intro _
    exact Attempt.staysWithin_exhaust
  · exact Behaviour.character_staysWithin
  · exact Behaviour.pattern_staysWithin
  · intro matchers inner h
    exact Behaviour.sequence_staysWithin h
  · intro matchers inner h
    exact Behaviour.alternation_staysWithin h
  · intro _ inner least most h
    exact Behaviour.quantifier_staysWithin h limits.rounds least most
  · intro _ inner h
    exact Behaviour.optional_staysWithin h
  · intro _ _ inner _ h
    exact h
  · intro _ label _ inner _ h
    exact Behaviour.observed_staysWithin h label

/-- A match ends where the matcher leaves the cursor, if that is so for the exposed calls. -/
theorem Matcher.behaviour_endsAtCursor
    (h : ∀ target, matcher.Exposed target → ∀ limits,
      ((Matcher.call target).behaviour grammar limits).EndsAtCursor source) (limits : Limits) :
    (matcher.behaviour grammar limits).EndsAtCursor source := by
  obtain ⟨nesting, rounds⟩ := limits
  show (matcher.behave grammar rounds nesting).EndsAtCursor source
  induction nesting generalizing matcher with
  | zero =>
    intro progress progress' found hrun
    cases hrun
  | succ nesting ih =>
    cases matcher with
    | char value => exact (Behaviour.character_frames value).endsAtCursor
    | pattern p => exact (Behaviour.pattern_frames p).endsAtCursor
    | seq matchers => exact (Behaviour.sequence_frames _).endsAtCursor
    | alt matchers =>
      refine Behaviour.alternation_endsAtCursor ?_
      intro behaviour hbehaviour
      obtain ⟨branch, hbranch, rfl⟩ := List.mem_map.1 hbehaviour
      exact ih fun target hexposed => h target (.alt hbranch hexposed)
    | quant matcher least most =>
      exact (Behaviour.quantifier_frames rounds _ least most).endsAtCursor
    | opt matcher => exact (Behaviour.optional_frames _).endsAtCursor
    | call target => exact h target (.call target) ⟨nesting + 1, rounds⟩

/-- Where exposed calls end their matches at the cursor, and no call takes the cursor beyond the end
    of the text, a whole text is parsed with a match if and only if the text is parsed with that
    match and the match ends with the text. -/
theorem Matcher.parseAll_iff_stop_eq_length {allowed : κ → Prop}
    (hclosed : grammar.ClosedUnder allowed)
    (hnative : ∀ target behaviour, allowed target → grammar target = .native behaviour →
      behaviour.StaysWithin source)
    (hcalls : matcher.CallsOnly allowed)
    (hexposed : ∀ target, matcher.Exposed target → ∀ limits,
      ((Matcher.call target).behaviour grammar limits).EndsAtCursor source)
    (limits : Limits) (found : Match) :
    (matcher.behaviour grammar limits).parseAll source = .returned (some found) ↔
      (matcher.behaviour grammar limits).parse source 0 = .returned (some found) ∧
        found.span.stop = source.length := by
  have hends := behaviour_endsAtCursor hexposed limits
  have hwithin := behaviour_staysWithin hclosed hnative hcalls limits
  rw [Behaviour.parseAll_eq_returned_iff, Behaviour.parse_zero_eq_returned_iff]
  constructor
  · rintro ⟨parsed, progress, hrun, hfound⟩
    by_cases hdone : Feed.done ⟨source, progress.cursor⟩ = true
    · rw [if_pos hdone] at hfound
      subst hfound
      have hstop := hends _ _ _ hrun
      have hle : progress.cursor ≤ source.length :=
        (hwithin ⟨0, []⟩ (Int.natCast_nonneg _)).of_returned hrun
      rw [Feed.done_iff] at hdone
      exact ⟨⟨progress, hrun⟩, by omega⟩
    · rw [if_neg hdone] at hfound
      cases hfound
  · rintro ⟨⟨progress, hrun⟩, hlength⟩
    have hstop := hends _ _ _ hrun
    have hdone : Feed.done ⟨source, progress.cursor⟩ = true := by
      rw [Feed.done_iff]
      omega
    exact ⟨some found, progress, hrun, by rw [if_pos hdone]⟩

end Matchers

/-! ## Calls that misreport -/

/-- What leaks is exposed and gives no match; what claims a span that is not there is below a
    sequence. -/
theorem Matcher.parseAll_iff_stop_eq_length_after_leak :
    let allowed := fun target : Callee => target = .probe .leaky ∨ target = .probe (.claim 5 9)
    let grammar := Grammar.ofRules []
    let source : Text := ['a', 'b']
    let matcher : Matcher Callee := .alt [.call (.probe .leaky),
      .seq [.call (.probe (.claim 5 9)), .char ['b']]]
    let found : Match := ⟨.ofMatches [⟨.text ['c', 'l', 'a', 'i', 'm'], ⟨5, 9, by decide, by decide⟩⟩,
      ⟨.text ['b'], ⟨1, 2, by decide, by decide⟩⟩], ⟨1, 2, by decide, by decide⟩⟩
    grammar.ClosedUnder allowed ∧
      (∀ target behaviour, allowed target → grammar target = .native behaviour →
        behaviour.StaysWithin source) ∧
      matcher.CallsOnly allowed ∧
      (∀ target, matcher.Exposed target → ∀ limits,
        ((Matcher.call target).behaviour grammar limits).EndsAtCursor source) ∧
      (matcher.behaviour grammar ⟨3, 0⟩).parseAll source = .returned (some found) := by
  intro allowed grammar source matcher found
  have hclosed : grammar.ClosedUnder allowed := by
    rintro target inner (rfl | rfl) hinner
    · cases hinner
    · cases hinner
  have hnative : ∀ target behaviour, allowed target → grammar target = .native behaviour →
      behaviour.StaysWithin source := by
    rintro target behaviour (rfl | rfl) hbehaviour
    · cases hbehaviour
      refine (Attempt.staysWithin_lookahead _).bind fun shown => ?_
      exact (Attempt.staysWithin_consume shown none).bind fun _ => Attempt.staysWithin_pure none
    · cases hbehaviour
      exact (Attempt.staysWithin_matchBetween _ 5 9).bind fun found =>
        Attempt.staysWithin_pure (some found)
  have hcalls : matcher.CallsOnly allowed := by
    have hseq : (Matcher.seq [.call (.probe (.claim 5 9)), .char ['b']]).CallsOnly allowed :=
      .seq (by simpa using ⟨.call (Or.inr rfl), .char _⟩)
    exact .alt (by simpa using ⟨.call (Or.inl rfl), hseq⟩)
  have hexposed : ∀ target, matcher.Exposed target → ∀ limits,
      ((Matcher.call target).behaviour grammar limits).EndsAtCursor source := by
    rintro target hexposed ⟨nesting, rounds⟩ progress progress' found hrun
    have htarget : target = .probe .leaky := by simpa [matcher] using hexposed
    subst htarget
    cases nesting with
    | zero => cases hrun
    | succ nesting => cases hrun
  refine ⟨hclosed, hnative, hcalls, hexposed, ?_⟩
  have hparse : (matcher.behaviour grammar ⟨3, 0⟩).parse source 0 = .returned (some found) := by
    rfl
  exact (parseAll_iff_stop_eq_length hclosed hnative hcalls hexposed ⟨3, 0⟩ found).2 ⟨hparse, rfl⟩

/-- The first branch has read the text and given nothing, and the second claims to match nothing at
    the beginning: the cursor is at the end, and the match is not. -/
theorem Matcher.parseAll_stop_ne_length :
    let matcher : Matcher Callee := .alt [.call (.probe .leaky), .call (.probe (.claim 0 0))]
    let source : Text := ['a']
    let found : Match := ⟨.text ['c', 'l', 'a', 'i', 'm'], ⟨0, 0, by decide, by decide⟩⟩
    (matcher.behaviour (Grammar.ofRules []) .wide).parseAll source = .returned (some found) ∧
      found.span.stop ≠ source.length :=
  ⟨rfl, by decide⟩

/-- A sequence says where the cursor is, which is beyond the end of the text. -/
example : ((Matcher.seq [.call (.probe (.goto 3 true))]).behaviour (Grammar.ofRules [])
    ⟨2, 0⟩).parseAll ['a', 'b'] = .returned (some ⟨.ofMatches
      [⟨.text ['g', 'o', 't', 'o'], ⟨0, 3, by decide, by decide⟩⟩],
      ⟨0, 3, by decide, by decide⟩⟩) := rfl

end CursorGrammar
