import CursorGrammar.Proofs.Ensures
import CursorGrammar.Proofs.Reading
import CursorGrammar.Proofs.Watching

set_option autoImplicit false

/-! # Rewinding

In a tree without calls a combinator puts the cursor nowhere but back to where it was called itself,
and never forward: only a token that is accepted takes the cursor on. So the cursor never leaves the
part of the text that begins where the run began, and no member is called outside it.

This is about every step of a run, and so about its journal. Who puts the cursor back is not in the
journal of the tree, but it is in that of the tree under observation: it is the matcher that was
called last of those that have not returned. -/

namespace CursorGrammar

/-! ## What a journal tells -/

namespace Journal

/-- Where the cursor is after these entries, on a run that began at `origin`. -/
def cursorAfter (origin : Int) : List Entry → Int
  | [] => origin
  | entry :: _ => entry.cursor

/-- Where the calls were made that have not returned, the latest first. -/
def openCalls : List Entry → List Int
  | [] => []
  | ⟨.enter _, cursor⟩ :: earlier => cursor :: openCalls earlier
  | ⟨.leave _ _, _⟩ :: earlier => (openCalls earlier).tail
  | ⟨.lookahead _ _, _⟩ :: earlier => openCalls earlier
  | ⟨.consume _ _ _, _⟩ :: earlier => openCalls earlier
  | ⟨.seek _, _⟩ :: earlier => openCalls earlier

end Journal

open Journal

/-- What is done to the cursor, after the earlier entries. It is put back to where the matcher was
    called that has been called last and has not returned, or taken past a token that stands there,
    or left alone. -/
def Entry.MovesCursor (source : Text) (origin : Int) (earlier : List Entry) (entry : Entry) :
    Prop :=
  match entry.event with
  | .seek target => entry.cursor = target ∧ target ≤ cursorAfter origin earlier ∧
      (openCalls earlier).head? = some target
  | .consume token length true => cursorAfter origin earlier ≤ entry.cursor ∧
      entry.cursor = cursorAfter origin earlier + Feed.tokenLength token length ∧
      Feed.accepts ⟨source, cursorAfter origin earlier⟩ token length = true
  | _ => entry.cursor = cursorAfter origin earlier

/-- All that has been done to the cursor since the run began at `origin` is to put it back and to
    take it past tokens, and it has always been inside the text and not before `origin`. -/
structure Progress.OnlyRewound (source : Text) (origin : Int) (progress : Progress) : Prop where
  cursor_eq : progress.cursor = cursorAfter origin progress.journal
  inRange : origin ≤ progress.cursor ∧ progress.cursor ≤ source.length
  entries : ∀ entry earlier, entry :: earlier <:+ progress.journal →
    (origin ≤ entry.cursor ∧ entry.cursor ≤ source.length) ∧
      entry.MovesCursor source origin earlier

variable {source : Text} {origin : Int} {progress : Progress}

theorem Progress.OnlyRewound.step (h : progress.OnlyRewound source origin) {entry : Entry}
    (hrange : origin ≤ entry.cursor ∧ entry.cursor ≤ source.length)
    (hmoves : entry.MovesCursor source origin progress.journal) :
    Progress.OnlyRewound source origin ⟨entry.cursor, entry :: progress.journal⟩ where
  cursor_eq := rfl
  inRange := hrange
  entries other earlier hsuffix := by
    rcases List.suffix_cons_iff.1 hsuffix with heq | hearlier
    · obtain ⟨rfl, rfl⟩ := List.cons.inj heq
      exact ⟨hrange, hmoves⟩
    · exact h.entries other earlier hearlier

/-- An event that leaves the cursor alone. -/
theorem Progress.OnlyRewound.stand (h : progress.OnlyRewound source origin) {event : Event}
    (hmoves : Entry.MovesCursor source origin progress.journal ⟨event, progress.cursor⟩
      = (progress.cursor = cursorAfter origin progress.journal)) :
    Progress.OnlyRewound source origin
      ⟨progress.cursor, ⟨event, progress.cursor⟩ :: progress.journal⟩ :=
  h.step h.inRange (hmoves.mpr h.cursor_eq)

/-! ## Between a call and its return

While a matcher is in progress the calls that are open are those that were open when it was called,
and the cursor is not before where it was called: `low` in what follows. -/

/-- The run has only rewound, these calls are open, and the cursor is not before `low`. -/
structure Progress.Within (source : Text) (origin : Int) (calls : List Int) (low : Int)
    (progress : Progress) : Prop where
  onlyRewound : progress.OnlyRewound source origin
  openCalls_eq : openCalls progress.journal = calls
  origin_le : origin ≤ low
  low_le : low ≤ progress.cursor

/-- At the end the same calls are open and the cursor is not before `low`, unless the run is cut
    short; there is no fault. -/
def Post.within {α : Type} (source : Text) (origin : Int) (calls : List Int) (low : Int) :
    Post α where
  returned _ progress := progress.Within source origin calls low
  raised _ _ := False
  exhausted progress := progress.OnlyRewound source origin

/-- Run with these calls open and the cursor not before `low`, the attempt does nothing to the
    cursor but rewind it and take it past tokens, and keeps these calls open and the cursor not
    before `low`. -/
def Attempt.OnlyRewinds {α : Type} (source : Text) (origin : Int) (calls : List Int) (low : Int)
    (attempt : Attempt α) : Prop :=
  ∀ progress : Progress, progress.Within source origin calls low →
    attempt.Ensures source progress (.within source origin calls low)

/-- Called as the latest of the open calls, the behaviour only rewinds, and not to before where it
    was called. -/
def Behaviour.OnlyRewindsOnceCalled (source : Text) (origin : Int) (behaviour : Behaviour) : Prop :=
  ∀ (calls : List Int) (progress : Progress),
    progress.Within source origin (progress.cursor :: calls) progress.cursor →
      behaviour.Ensures source progress
        (.within source origin (progress.cursor :: calls) progress.cursor)

namespace Progress.Within

variable {calls : List Int} {low : Int}

theorem look (h : progress.Within source origin calls low) (window : Option Int) (shown : Text) :
    Progress.Within source origin calls low
      ⟨progress.cursor, ⟨.lookahead window shown, progress.cursor⟩ :: progress.journal⟩ :=
  ⟨h.onlyRewound.stand rfl, h.openCalls_eq, h.origin_le, h.low_le⟩

theorem reject (h : progress.Within source origin calls low) (token : Text)
    (length : Option Int) :
    Progress.Within source origin calls low
      ⟨progress.cursor, ⟨.consume token length false, progress.cursor⟩ :: progress.journal⟩ :=
  ⟨h.onlyRewound.stand rfl, h.openCalls_eq, h.origin_le, h.low_le⟩

theorem accept (h : progress.Within source origin calls low) (horigin : 0 ≤ origin)
    {token : Text} {length : Option Int}
    (haccepts : Feed.accepts ⟨source, progress.cursor⟩ token length = true) :
    let cursor := progress.cursor + Feed.tokenLength token length
    Progress.Within source origin calls low
      ⟨cursor, ⟨.consume token length true, cursor⟩ :: progress.journal⟩ := by
  intro cursor
  obtain ⟨hlow, hhigh⟩ := h.onlyRewound.inRange
  obtain ⟨hsize, hend⟩ := Feed.accepts_le_length ⟨Int.le_trans horigin hlow, hhigh⟩ haccepts
  have hforward : progress.cursor ≤ cursor := Int.le_add_of_nonneg_right hsize
  have hmoves : Entry.MovesCursor source origin progress.journal
      ⟨.consume token length true, cursor⟩ := by
    unfold Entry.MovesCursor
    rw [← h.onlyRewound.cursor_eq]
    exact ⟨hforward, rfl, haccepts⟩
  exact ⟨h.onlyRewound.step ⟨Int.le_trans hlow hforward, hend⟩ hmoves, h.openCalls_eq,
    h.origin_le, Int.le_trans h.low_le hforward⟩

/-- A combinator puts the cursor back to where it was called, which is where its own call is. -/
theorem rewind {start : Int} (h : progress.Within source origin (start :: calls) start) :
    Progress.Within source origin (start :: calls) start
      ⟨start, ⟨.seek start, start⟩ :: progress.journal⟩ := by
  obtain ⟨hlow, hhigh⟩ := h.onlyRewound.inRange
  have hmoves : Entry.MovesCursor source origin progress.journal ⟨.seek start, start⟩ := by
    unfold Entry.MovesCursor
    rw [← h.onlyRewound.cursor_eq, h.openCalls_eq]
    exact ⟨rfl, h.low_le, rfl⟩
  exact ⟨h.onlyRewound.step ⟨h.origin_le, Int.le_trans h.low_le hhigh⟩ hmoves, h.openCalls_eq,
    h.origin_le, Int.le_refl start⟩

theorem enter (h : progress.Within source origin calls low) (label : Text) :
    Progress.Within source origin (progress.cursor :: calls) progress.cursor
      ⟨progress.cursor, ⟨.enter label, progress.cursor⟩ :: progress.journal⟩ :=
  ⟨h.onlyRewound.stand rfl, congrArg (progress.cursor :: ·) h.openCalls_eq,
    h.onlyRewound.inRange.1, Int.le_refl _⟩

theorem leave {start : Int} (h : progress.Within source origin (start :: calls) start)
    (horigin : origin ≤ low) (hlow : low ≤ start) (label : Text) (matched : Bool) :
    Progress.Within source origin calls low
      ⟨progress.cursor, ⟨.leave label matched, progress.cursor⟩ :: progress.journal⟩ :=
  ⟨h.onlyRewound.stand rfl, congrArg List.tail h.openCalls_eq, horigin,
    Int.le_trans hlow h.low_le⟩

end Progress.Within

namespace Attempt

variable {α β : Type} {calls : List Int} {low start : Int}

theorem OnlyRewinds.bind {attempt : Attempt α} {next : α → Attempt β}
    (h : attempt.OnlyRewinds source origin calls low)
    (hnext : ∀ value, (next value).OnlyRewinds source origin calls low) :
    (attempt >>= next).OnlyRewinds source origin calls low := by
  intro progress hprogress
  refine (h progress hprogress).bind ?_ (fun _ _ hraised => hraised) (fun _ hcut => hcut)
  intro value progress' hreturned
  exact hnext value progress' hreturned

theorem onlyRewinds_pure (value : α) :
    (pure value : Attempt α).OnlyRewinds source origin calls low :=
  fun _ h => h

theorem onlyRewinds_exhaust : (exhaust : Attempt α).OnlyRewinds source origin calls low :=
  fun _ h => h.onlyRewound

theorem onlyRewinds_lookahead (window : Option Int) :
    (lookahead window).OnlyRewinds source origin calls low :=
  fun _ h => h.look window _

theorem onlyRewinds_consume (horigin : 0 ≤ origin) (token : Text) (length : Option Int) :
    (consume token length).OnlyRewinds source origin calls low := by
  intro progress h
  unfold Ensures consume Feed.consume
  cases haccepts : Feed.accepts ⟨source, progress.cursor⟩ token length with
  | true => exact h.accept horigin haccepts
  | false => exact h.reject token length

theorem onlyRewinds_matchFrom (horigin : 0 ≤ origin) (value : Value) :
    (matchFrom value start).OnlyRewinds source origin (start :: calls) start := by
  intro progress h
  have hsome : Attempt.Ensures (matchFrom value start >>= pure) source progress
      (.within source origin (start :: calls) start) :=
    ensures_matchFrom_bind (Int.le_trans horigin h.origin_le) h.low_le h
  rwa [bind_pure] at hsome

/-- The latest of the open calls is that of the combinator itself. -/
theorem onlyRewinds_congruence (horigin : 0 ≤ origin) (calls : List Int) (start : Int) :
    Congruence (fun _ attempt _ => attempt.OnlyRewinds source origin (start :: calls) start)
      start where
  pure := onlyRewinds_pure
  bind := OnlyRewinds.bind
  position := fun _ h => h
  lookahead := onlyRewinds_lookahead
  consume := onlyRewinds_consume horigin
  seek := fun _ h => h.rewind
  matchFrom := onlyRewinds_matchFrom horigin

end Attempt

namespace Behaviour

open Attempt

variable {ι : Type} {members : List ι} {inner : ι → Behaviour} {behaviour : Behaviour}
variable {calls : List Int} {low start : Int}

/-- A call of the behaviour is noted, and what it does then happens once it has been called. -/
theorem observed_onlyRewinds (h : behaviour.OnlyRewindsOnceCalled source origin) (label : Text) :
    (observed label behaviour).OnlyRewinds source origin calls low := by
  intro progress hprogress
  unfold observed
  rw [ensures_note_bind]
  -- until it returns the call is the latest of those that are open, and then the next one is again
  refine (h calls _ (hprogress.enter label)).bind ?_ (fun _ _ hraised => hraised)
    (fun _ hcut => hcut)
  intro outcome progress' hreturned
  rw [ensures_note_bind]
  exact hreturned.leave hprogress.origin_le hprogress.low_le label outcome.isSome

/-- A matcher that asks for the cursor first knows where it was called. -/
theorem position_bind_onlyRewinds {next : Int → Behaviour} (h : ∀ calls start,
    (next start).OnlyRewinds source origin (start :: calls) start) :
    OnlyRewindsOnceCalled source origin (position >>= next) :=
  fun calls progress => h calls progress.cursor progress

theorem lookahead_bind_onlyRewinds {window : Option Int} {next : Text → Behaviour}
    (h : ∀ shown, (next shown).OnlyRewindsOnceCalled source origin) :
    OnlyRewindsOnceCalled source origin (lookahead window >>= next) :=
  fun calls _ hprogress => h _ calls _ (hprogress.look window _)

section Called

variable (horigin : 0 ≤ origin)

include horigin

/-! ## Leaves -/

theorem character_onlyRewinds (value : Text) :
    (character value).OnlyRewindsOnceCalled source origin :=
  position_bind_onlyRewinds fun calls start =>
    token_related (onlyRewinds_congruence horigin calls start) (.text value) value (some 1)

theorem pattern_onlyRewinds (p : Pattern) : (pattern p).OnlyRewindsOnceCalled source origin := by
  refine lookahead_bind_onlyRewinds fun shown => ?_
  split
  next => exact fun _ _ h => h
  next found _ =>
    exact position_bind_onlyRewinds fun calls start =>
      token_related (onlyRewinds_congruence horigin calls start) (.text found) found _

/-! ## Combinators -/

theorem sequence_onlyRewinds (h : ∀ i ∈ members, ∀ calls low,
    (inner i).OnlyRewinds source origin calls low) :
    (sequence (members.map inner)).OnlyRewindsOnceCalled source origin :=
  position_bind_onlyRewinds fun calls start =>
    sequenceFrom_of_congruence (onlyRewinds_congruence horigin calls start)
      (fun i hi => h i hi _ _) []

theorem alternation_onlyRewinds (h : ∀ i ∈ members, ∀ calls low,
    (inner i).OnlyRewinds source origin calls low) :
    (alternation (members.map inner)).OnlyRewindsOnceCalled source origin :=
  fun calls progress =>
    alternation_of_congruence (onlyRewinds_congruence horigin calls progress.cursor)
      (fun i hi => h i hi _ _) progress

theorem quantifier_onlyRewinds (h : ∀ calls low, behaviour.OnlyRewinds source origin calls low)
    (limit : Nat) (least : Int) (most : Option Int) :
    (quantifier limit behaviour least most).OnlyRewindsOnceCalled source origin := by
  refine position_bind_onlyRewinds fun calls start => ?_
  cases most with
  | some most =>
    exact boundedRounds_of_congruence (onlyRewinds_congruence horigin calls start) (h _ _)
      most.toNat []
  | none =>
    exact unboundedRounds_of_congruence (onlyRewinds_congruence horigin calls start) (h _ _)
      onlyRewinds_exhaust limit []

theorem optional_onlyRewinds (h : ∀ calls low, behaviour.OnlyRewinds source origin calls low) :
    (optional behaviour).OnlyRewindsOnceCalled source origin := by
  refine position_bind_onlyRewinds fun calls start => (h _ _).bind fun outcome => ?_
  exact OnlyRewinds.bind (onlyRewinds_congruence horigin calls start).seek fun _ =>
    some_matchFrom_related (onlyRewinds_congruence horigin calls start) _

end Called

end Behaviour

/-! ## Matchers -/

namespace Matcher

theorem watched_onlyRewinds (horigin : 0 ≤ origin) (label : Matcher Empty → Text)
    (rules : List (Text × Matcher Callee)) (rounds nesting : Nat) (matcher : Matcher Empty)
    (calls : List Int) (low : Int) :
    ((matcher.watched label).behave (.ofRules rules) rounds (2 * nesting)).OnlyRewinds source origin
      calls low := by
  induction nesting generalizing matcher calls low with
  | zero => exact Attempt.onlyRewinds_exhaust
  | succ nesting ih =>
    -- the members have observers of their own, so each of them opens and closes a call
    refine Behaviour.observed_onlyRewinds ?_ (label matcher)
    show Behaviour.OnlyRewindsOnceCalled _ _
      ((matcher.watchMembers label).behave _ rounds (2 * nesting + 1))
    cases matcher with
    | char value => exact Behaviour.character_onlyRewinds horigin value
    | pattern p => exact Behaviour.pattern_onlyRewinds horigin p
    | seq matchers =>
      rw [watchMembers, watchAll_eq_map, behave, List.map_map]
      exact Behaviour.sequence_onlyRewinds horigin fun member _ => ih member
    | alt matchers =>
      rw [watchMembers, watchAll_eq_map, behave, List.map_map]
      exact Behaviour.alternation_onlyRewinds horigin fun member _ => ih member
    | quant member least most =>
      exact Behaviour.quantifier_onlyRewinds horigin (ih member) rounds least most
    | opt member => exact Behaviour.optional_onlyRewinds horigin (ih member)
    | call target => exact target.elim

end Matcher

end CursorGrammar
