import CursorGrammar.Proofs.Ensures
import CursorGrammar.Proofs.OrderedChoice

set_option autoImplicit false

/-! # What runs return is judged so

A behaviour is sound for a matcher if what it returns inside the text is what the matcher is judged
to do there, with the cursor where that leaves it. A combinator is sound if its members are. In the
midst of a sequence or of a repetition the invariant is that whatever the rest is judged to do from
the cursor on completes the judgement of the whole. -/

namespace CursorGrammar

variable {κ : Type}

/-- The outcome is the one that the matcher is judged to have at the offset. -/
def Judged (grammar : Grammar κ) (source : Text) (matcher : Matcher κ) (p : Int) :
    Option Match → Prop
  | none => Fails grammar source matcher p
  | some found => Succeeds grammar source matcher p found

/-- Where a matcher called at the offset leaves the cursor: after the match, if there is one. -/
def Match.stopFrom (p : Int) : Option Match → Int
  | none => p
  | some found => found.span.stop

namespace Behaviour

/-- A call at `p` returns what the matcher is judged to do there, unless it is given up at a
    limit. -/
def verdict (grammar : Grammar κ) (source : Text) (matcher : Matcher κ) (p : Int) :
    Post (Option Match) where
  returned outcome progress :=
    Judged grammar source matcher p outcome ∧ progress.cursor = Match.stopFrom p outcome
  raised _ _ := False
  exhausted _ := True

/-- Inside the text the behaviour returns what the matcher is judged to do. -/
def Sound (grammar : Grammar κ) (source : Text) (matcher : Matcher κ) (behaviour : Behaviour) :
    Prop :=
  ∀ progress : Progress, source.InRange progress.cursor →
    behaviour.Ensures source progress (verdict grammar source matcher progress.cursor)

variable {grammar : Grammar κ} {source : Text} {progress : Progress} {matcher : Matcher κ}

theorem Sound.bind {behaviour : Behaviour} {β : Type} {next : Option Match → Attempt β}
    {post : Post β} (h : behaviour.Sound grammar source matcher)
    (hrange : source.InRange progress.cursor)
    (hnone : Fails grammar source matcher progress.cursor → ∀ progress' : Progress,
      progress'.cursor = progress.cursor → (next none).Ensures source progress' post)
    (hsome : ∀ found, Succeeds grammar source matcher progress.cursor found →
      ∀ progress' : Progress, progress'.cursor = found.span.stop →
        (next (some found)).Ensures source progress' post)
    (hgaveUp : ∀ progress', post.exhausted progress') :
    (behaviour >>= next).Ensures source progress post := by
  refine (h progress hrange).bind ?_ (fun _ _ hraised => hraised.elim)
    (fun progress' _ => hgaveUp progress')
  rintro outcome progress' ⟨hjudged, hcursor⟩
  cases outcome with
  | none => exact hnone hjudged progress' hcursor
  | some found => exact hsome found hjudged progress' hcursor

/-! ## Leaves -/

theorem character_sound (value : Text) :
    (character value).Sound grammar source (.char value) := by
  intro progress hrange
  unfold character
  rw [Attempt.ensures_position_bind]
  refine Attempt.ensures_consume_bind ?_ ?_
  · intro haccepts journal
    obtain ⟨c, hvalue, hrest⟩ := (Feed.accepts_one_iff hrange).1 haccepts
    have hle : progress.cursor ≤ progress.cursor + 1 := by omega
    rw [if_pos rfl]
    exact Attempt.ensures_matchFrom_bind hrange.1 hle ⟨.char hvalue hrest ⟨rfl, rfl⟩, rfl⟩
  · intro hrejects journal
    exact ⟨.char (mt (Feed.accepts_one_iff hrange).2 (by rw [hrejects]; decide)), rfl⟩

theorem pattern_sound (p : Pattern) : (pattern p).Sound grammar source (.pattern p) := by
  intro progress hrange
  unfold pattern
  refine Attempt.ensures_lookahead_bind fun journal => ?_
  split
  next hnothing =>
    refine ⟨.pattern ?_, rfl⟩
    intro found hfound
    exact nomatch hnothing.symm.trans hfound
  next found hfound =>
    rw [Attempt.ensures_position_bind]
    refine Attempt.ensures_consume_bind ?_ ?_
    · intro haccepts journal
      have hbegins := (Feed.accepts_whole_iff hrange).1 haccepts
      have hle : progress.cursor ≤ progress.cursor + found.length := by omega
      rw [if_pos rfl]
      exact Attempt.ensures_matchFrom_bind hrange.1 hle
        ⟨.pattern hfound hbegins ⟨rfl, rfl⟩, rfl⟩
    · intro hrejects journal
      refine ⟨.pattern ?_, rfl⟩
      intro found' hfound'
      cases hfound.symm.trans hfound'
      exact mt (Feed.accepts_whole_iff hrange).2 (by rw [hrejects]; decide)

/-! ## Sequences -/

/-- Whatever these members are judged to do from the offset on is what the whole sequence, which
    began at `start`, does with the matches that are collected in front. -/
structure CompletesSeq (grammar : Grammar κ) (source : Text) (whole : List (Matcher κ))
    (start : Int) (collected : List Match) (members : List (Matcher κ)) (p : Int) : Prop where
  fails : FailInTurn grammar source members p → FailInTurn grammar source whole start
  succeeds : ∀ founds q, SucceedInTurn grammar source members p founds q →
    SucceedInTurn grammar source whole start (collected.reverse ++ founds) q

section Sequence

variable {whole members : List (Matcher κ)} {start p : Int} {collected : List Match}

theorem CompletesSeq.finished (h : CompletesSeq grammar source whole start collected [] p) :
    SucceedInTurn grammar source whole start collected.reverse p := by
  have hwhole := h.succeeds [] p .nil
  rw [List.append_nil] at hwhole
  exact hwhole

/-- When the first of the members has succeeded, the others complete the sequence. -/
theorem CompletesSeq.next {found : Match}
    (h : CompletesSeq grammar source whole start collected (matcher :: members) p)
    (hfound : Succeeds grammar source matcher p found) :
    CompletesSeq grammar source whole start (found :: collected) members found.span.stop := by
  refine ⟨fun hlater => h.fails (.later hfound hlater), ?_⟩
  intro founds q hlater
  rw [List.reverse_cons, List.append_assoc]
  exact h.succeeds _ q (.cons hfound hlater)

theorem ensures_sequenceFrom_verdict {inner : Matcher κ → Behaviour}
    (hinner : ∀ m ∈ members, (inner m).Sound grammar source m) (hstart : 0 ≤ start)
    (hle : start ≤ progress.cursor) (hrange : source.InRange progress.cursor)
    (h : CompletesSeq grammar source whole start collected members progress.cursor) :
    (sequenceFrom start collected (members.map inner)).Ensures source progress
      (verdict grammar source (.seq whole) start) := by
  induction members generalizing collected progress with
  | nil =>
    exact Attempt.ensures_matchFrom_bind hstart hle ⟨.seq h.finished ⟨rfl, rfl⟩, rfl⟩
  | cons m rest ih =>
    refine (hinner m (List.mem_cons_self ..)).bind hrange ?_ ?_ (fun _ => trivial)
    · intro hfirst progress' _
      rw [Attempt.ensures_seek_bind]
      exact ⟨.seq (h.fails (.first hfirst)), rfl⟩
    · intro found hfound progress' hcursor
      obtain ⟨-, hmoved, hrange'⟩ := hfound.bounds hrange
      have hnext := h.next hfound
      rw [← hcursor] at hmoved hrange' hnext
      exact ih (fun m' hm' => hinner m' (List.mem_cons_of_mem _ hm')) (Int.le_trans hle hmoved)
        hrange' hnext

end Sequence

theorem sequence_sound {matchers : List (Matcher κ)} {inner : Matcher κ → Behaviour}
    (h : ∀ m ∈ matchers, (inner m).Sound grammar source m) :
    (sequence (matchers.map inner)).Sound grammar source (.seq matchers) := by
  intro progress hrange
  unfold sequence
  rw [Attempt.ensures_position_bind]
  exact ensures_sequenceFrom_verdict h hrange.1 (Int.le_refl _) hrange ⟨id, fun _ _ => id⟩

/-! ## Alternations -/

theorem alternation_sound {matchers : List (Matcher κ)} {inner : Matcher κ → Behaviour}
    (h : ∀ m ∈ matchers, (inner m).Sound grammar source m) :
    (alternation (matchers.map inner)).Sound grammar source (.alt matchers) := by
  induction matchers with
  | nil =>
    intro progress _
    exact ⟨.altNone, rfl⟩
  | cons m rest ih =>
    intro progress hrange
    refine (h m (List.mem_cons_self ..)).bind hrange ?_ ?_ (fun _ => trivial)
    · intro hfirst progress' hcursor
      -- a branch that fails has left the cursor alone, so the others are judged at the same offset
      have hrest := ih (fun m' hm' => h m' (List.mem_cons_of_mem _ hm')) progress'
        (by rw [hcursor]; exact hrange)
      rw [hcursor] at hrest
      refine hrest.mono ?_ (fun _ _ hraised => hraised) (fun _ _ => trivial)
      rintro outcome progress'' ⟨hjudged, hstop⟩
      cases outcome with
      | none => exact ⟨.altAll hfirst hjudged, hstop⟩
      | some found => exact ⟨.altLater hfirst hjudged, hstop⟩
    · intro found hfound progress' hcursor
      exact ⟨.altFirst hfound, hcursor⟩

/-! ## Repetitions -/

/-- Whatever rounds are judged to follow from the offset on, after `count` of them, are the rest of
    the repetition, which began at `start`, with the matches that are collected in front. -/
def CompletesQuant (grammar : Grammar κ) (source : Text) (matcher : Matcher κ)
    (most : Option Int) (start : Int) (count : Nat) (collected : List Match) (p : Int) : Prop :=
  ∀ founds q stalled, Repeats grammar source matcher most count p founds q stalled →
    Repeats grammar source matcher most 0 start (collected.reverse ++ founds) q stalled

section Repetition

variable {behaviour : Behaviour} {least start p : Int} {most : Option Int} {count : Nat}
variable {collected : List Match} {stalled : Bool}

theorem CompletesQuant.finished
    (h : CompletesQuant grammar source matcher most start count collected p)
    (hend : Repeats grammar source matcher most count p [] p false) :
    Repeats grammar source matcher most 0 start collected.reverse p false := by
  have hwhole := h [] p false hend
  rw [List.append_nil] at hwhole
  exact hwhole

/-- After a round that does not end the repetition, further ones complete it. -/
theorem CompletesQuant.next {found : Match}
    (h : CompletesQuant grammar source matcher most start count collected p)
    (hroom : ∀ bound ∈ most, (count : Int) < bound)
    (hfound : Succeeds grammar source matcher p found)
    (hwidth : most = none → found.span.stop ≠ found.span.start) :
    CompletesQuant grammar source matcher most start (count + 1) (found :: collected)
      found.span.stop := by
  intro founds q stalled hlater
  rw [List.reverse_cons, List.append_assoc]
  exact h _ q stalled (.more hroom hfound hwidth hlater)

/-- At its end the rounds of the repetition are those that have been collected. -/
theorem ensures_endRepetition_verdict (hstart : 0 ≤ start) (hle : start ≤ progress.cursor)
    (h : Repeats grammar source matcher most 0 start collected.reverse progress.cursor stalled) :
    (endRepetition least start stalled collected).Ensures source progress
      (verdict grammar source (.quant matcher least most) start) := by
  unfold endRepetition
  by_cases henough : stalled = true ∨ least ≤ collected.length
  · rw [if_pos henough]
    rw [← List.length_reverse] at henough
    exact Attempt.ensures_matchFrom_bind hstart hle ⟨.quant h henough ⟨rfl, rfl⟩, rfl⟩
  · rw [if_neg henough]
    rw [← List.length_reverse] at henough
    exact ⟨.quant h henough, rfl⟩

theorem ensures_boundedRounds_verdict (hinner : behaviour.Sound grammar source matcher)
    {bound : Int} {rounds : Nat} (hrounds : (bound - count).toNat = rounds) (hstart : 0 ≤ start)
    (hle : start ≤ progress.cursor) (hrange : source.InRange progress.cursor)
    (h : CompletesQuant grammar source matcher (some bound) start count collected
      progress.cursor) :
    (boundedRounds behaviour least start rounds collected).Ensures source progress
      (verdict grammar source (.quant matcher least (some bound)) start) := by
  induction rounds generalizing count collected progress with
  | zero =>
    have hend := h.finished (.full (by omega))
    exact ensures_endRepetition_verdict hstart hle hend
  | succ rounds ih =>
    have hroom : ∀ bound' ∈ some bound, (count : Int) < bound' := by
      rintro bound' ⟨⟩
      omega
    refine hinner.bind hrange ?_ ?_ (fun _ => trivial)
    · intro hfails progress' hcursor
      have hend := h.finished (.failed hroom hfails)
      rw [← hcursor] at hend hle
      exact ensures_endRepetition_verdict hstart hle hend
    · intro found hfound progress' hcursor
      obtain ⟨-, hmoved, hrange'⟩ := hfound.bounds hrange
      have hnext := h.next hroom hfound nofun
      rw [← hcursor] at hmoved hrange' hnext
      exact ih (by omega) (Int.le_trans hle hmoved) hrange' hnext

theorem ensures_unboundedRounds_verdict (hinner : behaviour.Sound grammar source matcher)
    {rounds : Nat} (hstart : 0 ≤ start) (hle : start ≤ progress.cursor)
    (hrange : source.InRange progress.cursor)
    (h : CompletesQuant grammar source matcher none start count collected progress.cursor) :
    (unboundedRounds behaviour least start rounds collected).Ensures source progress
      (verdict grammar source (.quant matcher least none) start) := by
  induction rounds generalizing count collected progress with
  | zero => exact trivial
  | succ rounds ih =>
    unfold unboundedRounds
    rw [Attempt.ensures_position_bind]
    refine hinner.bind hrange ?_ ?_ (fun _ => trivial)
    · intro hfails progress' hcursor
      have hend := h.finished (.failed nofun hfails)
      rw [← hcursor] at hend hle
      exact ensures_endRepetition_verdict hstart hle hend
    · intro found hfound progress' hcursor
      obtain ⟨hfrom, hmoved, hrange'⟩ := hfound.bounds hrange
      -- the cursor has stayed where it was just if the match covers nothing
      rw [Attempt.ensures_position_bind, hcursor, ← hfrom]
      rw [← hcursor] at hmoved hrange'
      by_cases hwidth : found.span.stop = found.span.start
      · rw [if_pos hwidth]
        have hend := h _ _ true (.stalled hfound hwidth)
        rw [← hcursor, ← List.reverse_cons] at hend
        exact ensures_endRepetition_verdict hstart (Int.le_trans hle hmoved) hend
      · rw [if_neg hwidth]
        have hnext := h.next nofun hfound (fun _ => hwidth)
        rw [← hcursor] at hnext
        exact ih (Int.le_trans hle hmoved) hrange' hnext

theorem quantifier_sound (hinner : behaviour.Sound grammar source matcher) (limit : Nat)
    (least : Int) (most : Option Int) :
    (quantifier limit behaviour least most).Sound grammar source (.quant matcher least most) := by
  intro progress hrange
  unfold quantifier
  rw [Attempt.ensures_position_bind]
  cases most with
  | some bound =>
    have hrounds : (bound - (0 : Nat)).toNat = bound.toNat := by simp
    exact ensures_boundedRounds_verdict hinner hrounds hrange.1 (Int.le_refl _) hrange
      (fun _ _ _ => id)
  | none =>
    have hwhole : CompletesQuant grammar source matcher none progress.cursor 0 []
        progress.cursor := fun _ _ _ => id
    exact ensures_unboundedRounds_verdict hinner hrange.1 (Int.le_refl _) hrange hwhole

end Repetition

/-! ## Options -/

theorem optional_sound {behaviour : Behaviour} (h : behaviour.Sound grammar source matcher) :
    (optional behaviour).Sound grammar source (.opt matcher) := by
  intro progress hrange
  unfold optional
  rw [Attempt.ensures_position_bind]
  refine h.bind hrange ?_ ?_ (fun _ => trivial)
  · intro hfails progress' _
    rw [Attempt.ensures_seek_bind]
    exact Attempt.ensures_matchFrom_bind hrange.1 (Int.le_refl _)
      ⟨.optNothing hfails ⟨rfl, rfl⟩, rfl⟩
  · intro found hfound progress' _
    rw [Attempt.ensures_seek_bind]
    exact Attempt.ensures_matchFrom_bind hrange.1 (Int.le_refl _)
      ⟨.optFound hfound ⟨rfl, rfl⟩, rfl⟩

/-! ## Calls -/

theorem forward_sound {behaviour : Behaviour} {target : κ}
    (hcall : (grammar target).matcher? = some matcher)
    (h : behaviour.Sound grammar source matcher) :
    behaviour.Sound grammar source (.call target) := by
  intro progress hrange
  refine (h progress hrange).mono ?_ (fun _ _ hraised => hraised) (fun _ _ => trivial)
  rintro outcome progress' ⟨hjudged, hstop⟩
  cases outcome with
  | none => exact ⟨.call hcall hjudged, hstop⟩
  | some found => exact ⟨.call hcall hjudged, hstop⟩

theorem observed_sound {behaviour : Behaviour} (h : behaviour.Sound grammar source matcher)
    (label : Text) : (observed label behaviour).Sound grammar source matcher := by
  intro progress hrange
  unfold observed
  rw [Attempt.ensures_note_bind]
  have hinner := h ⟨progress.cursor, ⟨.enter label, progress.cursor⟩ :: progress.journal⟩ hrange
  refine hinner.bind ?_ (fun _ _ hraised => hraised) (fun _ _ => trivial)
  intro outcome progress' hreturned
  rw [Attempt.ensures_note_bind]
  exact hreturned

end Behaviour

/-- If no allowed call behaves in a way of its own, then what is returned is judged so. -/
theorem Matcher.behaviour_sound {grammar : Grammar κ} {allowed : κ → Prop} {source : Text}
    (hclosed : grammar.ClosedUnder allowed)
    (hjudged : ∀ target, allowed target → (grammar target).matcher? ≠ none)
    {matcher : Matcher κ} (hcalls : matcher.CallsOnly allowed) (limits : Limits) :
    (matcher.behaviour grammar limits).Sound grammar source matcher := by
  refine behave_induction
    (motive := fun matcher behaviour => behaviour.Sound grammar source matcher) hclosed
    ?_ ?_ ?_ ?_ ?_ ?_ ?_ ?_ ?_ ?_ limits.nesting matcher hcalls
  · intro _ progress _
    exact trivial
  · exact Behaviour.character_sound
  · exact Behaviour.pattern_sound
  · intro matchers inner h
    exact Behaviour.sequence_sound h
  · intro matchers inner h
    exact Behaviour.alternation_sound h
  · intro matcher inner least most h
    exact Behaviour.quantifier_sound h limits.rounds least most
  · intro matcher inner h
    exact Behaviour.optional_sound h
  · intro target matcher inner hcall h
    exact Behaviour.forward_sound (by rw [hcall]; rfl) h
  · intro target label matcher inner hcall h
    exact Behaviour.forward_sound (by rw [hcall]; rfl) (Behaviour.observed_sound h label)
  · intro target behaviour hallowed hcall
    exact absurd (by rw [hcall]; rfl) (hjudged target hallowed)

end CursorGrammar
