import CursorGrammar.Proofs.OrderedChoice

set_option autoImplicit false

/-! # Runs that return

The counterpart to what an attempt ensures: from a given cursor it returns a given value and leaves
the cursor at a given place. Attempts that return make up longer ones that return. -/

namespace CursorGrammar

namespace Attempt

variable {α β : Type} {source : Text} {p q r : Int}

/-- With the cursor at `p`, whatever has happened before, the attempt returns the value and leaves
    the cursor at `q`. -/
def Returns (attempt : Attempt α) (source : Text) (p : Int) (value : α) (q : Int) : Prop :=
  ∀ journal, ∃ journal', attempt source ⟨p, journal⟩ = (.returned value, ⟨q, journal'⟩)

theorem Returns.bind {attempt : Attempt α} {next : α → Attempt β} {value : α} {result : β}
    (h : attempt.Returns source p value q) (hnext : (next value).Returns source q result r) :
    (attempt >>= next).Returns source p result r := by
  intro journal
  obtain ⟨journal', hrun⟩ := h journal
  obtain ⟨journal'', hrun'⟩ := hnext journal'
  exact ⟨journal'', (andThen_of_returned hrun).trans hrun'⟩

theorem returns_pure (value : α) : (pure value : Attempt α).Returns source p value p :=
  fun journal => ⟨journal, rfl⟩

theorem returns_position : position.Returns source p p p :=
  fun journal => ⟨journal, rfl⟩

theorem returns_seek (cursor : Int) : (seek cursor).Returns source p () cursor :=
  fun _ => ⟨_, rfl⟩

theorem returns_note (event : Event) : (note event).Returns source p () p :=
  fun _ => ⟨_, rfl⟩

theorem returns_lookahead :
    (lookahead none).Returns source p (source.sliceFrom p) p :=
  fun _ => ⟨_, rfl⟩

theorem returns_consume {token : Text} {length : Option Int} {accepted : Bool}
    (h : Feed.accepts ⟨source, p⟩ token length = accepted)
    (hcursor : q = if accepted then p + Feed.tokenLength token length else p) :
    (consume token length).Returns source p accepted q := by
  intro journal
  unfold consume Feed.consume
  rw [h, hcursor]
  cases accepted with
  | true => exact ⟨_, rfl⟩
  | false => exact ⟨_, rfl⟩

theorem returns_matchFrom {value : Value} {start : Int} {span : Span}
    (h : span.Covers start p) :
    (matchFrom value start).Returns source p ⟨value, span⟩ p := by
  intro journal
  refine ⟨journal, ?_⟩
  show matchBetween value start p source ⟨p, journal⟩ = _
  unfold matchBetween
  rw [Span.ofBounds?_eq_some_iff.2 h]
  rfl

end Attempt

namespace Behaviour

open Attempt

variable {source : Text} {p q r : Int} {span : Span} {behaviour : Behaviour}

/-! ## Leaves -/

theorem character_returns {value : Text} {c : Char} (hrange : source.InRange p)
    (hvalue : value.head? = some c) (hrest : (source.sliceFrom p).head? = some c)
    (hspan : span.Covers p (p + 1)) :
    (character value).Returns source p (some ⟨.text value, span⟩) (p + 1) := by
  have haccepts := (Feed.accepts_one_iff hrange).2 ⟨c, hvalue, hrest⟩
  refine returns_position.bind ((returns_consume haccepts rfl).bind ?_)
  exact (returns_matchFrom hspan).bind (returns_pure _)

theorem character_returns_none {value : Text} (hrange : source.InRange p)
    (h : ¬∃ c, value.head? = some c ∧ (source.sliceFrom p).head? = some c) :
    (character value).Returns source p none p := by
  have hrejects := Bool.eq_false_iff.2 (mt (Feed.accepts_one_iff hrange).1 h)
  exact returns_position.bind ((returns_consume hrejects rfl).bind (returns_pure _))

theorem pattern_returns {pattern : Pattern} {found : Text} (hrange : source.InRange p)
    (hfound : pattern.find (source.sliceFrom p) = some found)
    (hbegins : found <+: source.sliceFrom p) (hspan : span.Covers p (p + found.length)) :
    (Behaviour.pattern pattern).Returns source p (some ⟨.text found, span⟩)
      (p + found.length) := by
  refine returns_lookahead.bind ?_
  rw [hfound]
  have haccepts := (Feed.accepts_whole_iff hrange).2 hbegins
  refine returns_position.bind ((returns_consume haccepts rfl).bind ?_)
  exact (returns_matchFrom hspan).bind (returns_pure _)

theorem pattern_returns_none {pattern : Pattern} (hrange : source.InRange p)
    (h : ∀ found, pattern.find (source.sliceFrom p) = some found →
      ¬found <+: source.sliceFrom p) :
    (Behaviour.pattern pattern).Returns source p none p := by
  refine returns_lookahead.bind ?_
  cases hfound : pattern.find (source.sliceFrom p) with
  | none => exact returns_pure _
  | some found =>
    have hrejects := Bool.eq_false_iff.2 (mt (Feed.accepts_whole_iff hrange).1 (h found hfound))
    exact returns_position.bind ((returns_consume hrejects rfl).bind (returns_pure _))

/-! ## Options -/

/-- Whatever the behaviour returns, the option matches nothing, and the cursor is where it was. -/
theorem optional_of_returned {progress progress' : Progress} {outcome : Option Match}
    (hcall : behaviour source progress = (.returned outcome, progress'))
    (hspan : span.Covers progress.cursor progress.cursor) :
    ∃ journal, optional behaviour source progress
      = (.returned (some ⟨.ofOption outcome, span⟩), ⟨progress.cursor, journal⟩) := by
  have hend : Returns (do
      seek progress.cursor
      return some (← matchFrom (.ofOption outcome) progress.cursor)) source progress'.cursor
        (some ⟨.ofOption outcome, span⟩) progress.cursor :=
    (returns_seek progress.cursor).bind ((returns_matchFrom hspan).bind (returns_pure _))
  obtain ⟨journal, hrun⟩ := hend progress'.journal
  exact ⟨journal, (andThen_of_returned hcall).trans hrun⟩

theorem optional_returns {outcome : Option Match} (h : behaviour.Returns source p outcome q)
    (hspan : span.Covers p p) :
    (optional behaviour).Returns source p (some ⟨.ofOption outcome, span⟩) span.stop := by
  intro journal
  obtain ⟨journal', hcall⟩ := h journal
  rw [hspan.2]
  exact optional_of_returned hcall hspan

/-! ## Repetitions -/

theorem endRepetition_returns {least start : Int} {stalled : Bool} {founds : List Match}
    (henough : stalled = true ∨ least ≤ founds.length) (hspan : span.Covers start p) :
    (endRepetition least start stalled founds.reverse).Returns source p
      (some ⟨.ofMatches founds, span⟩) p := by
  unfold endRepetition
  rw [List.length_reverse, List.reverse_reverse, if_pos henough]
  exact (returns_matchFrom hspan).bind (returns_pure _)

theorem endRepetition_returns_none {least start : Int} {stalled : Bool} {founds : List Match}
    (hfew : ¬(stalled = true ∨ least ≤ founds.length)) :
    (endRepetition least start stalled founds.reverse).Returns source p none start := by
  unfold endRepetition
  rw [List.length_reverse, if_neg hfew]
  exact (returns_seek start).bind (returns_pure _)

/-- The rounds of a repetition that are left after `count` of them, with or without an upper
    bound. -/
def roundsLeft (behaviour : Behaviour) (least start : Int) (most : Option Int) (limit count : Nat)
    (collected : List Match) : Behaviour :=
  match most with
  | some bound => boundedRounds behaviour least start (bound - count).toNat collected
  | none => unboundedRounds behaviour least start limit collected

theorem quantifier_eq (limit : Nat) (behaviour : Behaviour) (least : Int) (most : Option Int) :
    quantifier limit behaviour least most = (do
      let start ← position
      roundsLeft behaviour least start most limit 0 []) := by
  cases most with
  | some bound =>
    unfold quantifier roundsLeft
    simp
  | none => rfl

theorem roundsLeft_of_le {least start bound : Int} {limit count : Nat} {collected : List Match}
    (h : bound ≤ count) :
    roundsLeft behaviour least start (some bound) limit count collected
      = endRepetition least start false collected := by
  show boundedRounds behaviour least start (bound - count).toNat collected = _
  rw [Int.toNat_of_nonpos (by omega)]
  rfl

theorem roundsLeft_of_lt {least start bound : Int} {limit count : Nat} {collected : List Match}
    (h : (count : Int) < bound) :
    roundsLeft behaviour least start (some bound) limit count collected = (do
      match ← behaviour with
      | none => endRepetition least start false collected
      | some found =>
        roundsLeft behaviour least start (some bound) limit (count + 1) (found :: collected)) := by
  have hleft : (bound - count).toNat = (bound - (count + 1 : Nat)).toNat + 1 := by omega
  show boundedRounds behaviour least start (bound - count).toNat collected = _
  rw [hleft]
  rfl

theorem roundsLeft_none {least start : Int} {limit count : Nat} {collected : List Match} :
    roundsLeft behaviour least start none (limit + 1) count collected = (do
      let before ← position
      match ← behaviour with
      | none => endRepetition least start false collected
      | some found =>
        if (← position) = before then endRepetition least start true (found :: collected)
        else roundsLeft behaviour least start none limit (count + 1) (found :: collected)) :=
  rfl

end Behaviour

end CursorGrammar
