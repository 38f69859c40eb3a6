import CursorGrammar.Probe
import CursorGrammar.Proofs.Calls
import CursorGrammar.Proofs.Ensures
import CursorGrammar.Proofs.Reading

set_option autoImplicit false

/-! # The cursor contract

A behaviour keeps the contract on a text if it never raises a fault, and when it is called inside
the text either gives nothing and leaves the cursor where it was, or gives a match from there to
where it leaves the cursor, not beyond the end of the text. The leaves keep it, and a combinator
keeps it if all its members do. So in a grammar all of whose own behaviours keep the contract,
every matcher does, however its rules call each other. -/

namespace CursorGrammar

namespace Behaviour

/-- The contract for a call with the cursor at `start`. Whether the call may be given up at a limit
    is left to `gaveUp`. -/
def contract (gaveUp : Prop) (source : Text) (start : Int) : Post (Option Match) where
  returned outcome progress :=
    match outcome with
    | none => progress.cursor = start
    | some found => found.span.start = start ∧ found.span.stop = progress.cursor ∧
        start ≤ found.span.stop ∧ found.span.stop ≤ source.length
  raised _ _ := False
  exhausted _ := gaveUp

/-- The behaviour keeps the contract wherever it is called inside the text, and it is given up at a
    limit only if `gaveUp` holds. -/
def Keeps (gaveUp : Prop) (source : Text) (behaviour : Behaviour) : Prop :=
  ∀ progress : Progress, source.InRange progress.cursor →
    behaviour.Ensures source progress (contract gaveUp source progress.cursor)

/-- The behaviour keeps the contract whenever it returns, and never raises a fault. -/
abbrev WellBehaved (source : Text) (behaviour : Behaviour) : Prop :=
  behaviour.Keeps True source

variable {gaveUp : Prop} {source : Text} {progress : Progress}

/-- What follows a behaviour that keeps the contract begins either where that began, or where its
    match ends. -/
theorem Keeps.bind {behaviour : Behaviour} {β : Type} {next : Option Match → Attempt β}
    {post : Post β} (h : behaviour.Keeps gaveUp source) (hrange : source.InRange progress.cursor)
    (hnone : ∀ progress' : Progress, progress'.cursor = progress.cursor →
      (next none).Ensures source progress' post)
    (hsome : ∀ (found : Match) (progress' : Progress), found.span.start = progress.cursor →
      found.span.stop = progress'.cursor → progress.cursor ≤ progress'.cursor →
      source.InRange progress'.cursor → (next (some found)).Ensures source progress' post)
    (hgaveUp : ∀ progress', gaveUp → post.exhausted progress') :
    (behaviour >>= next).Ensures source progress post := by
  refine (h progress hrange).bind ?_ (fun _ _ hraised => hraised.elim) hgaveUp
  intro outcome progress' hreturned
  cases outcome with
  | none => exact hnone progress' hreturned
  | some found =>
    obtain ⟨hstart, hstop, hle, hend⟩ := hreturned
    rw [hstop] at hle hend
    exact hsome found progress' hstart hstop hle ⟨Int.le_trans hrange.1 hle, hend⟩

/-! ## Leaves -/

/-- A leaf that consumes a token gives a match of what it has consumed. -/
theorem ensures_consume_token {value : Value} {token : Text} {length : Option Int}
    (hrange : source.InRange progress.cursor) :
    Attempt.Ensures (do
      if ← Attempt.consume token length then
        return some (← Attempt.matchFrom value progress.cursor)
      else return none) source progress (contract gaveUp source progress.cursor) := by
  refine Attempt.ensures_consume_bind ?_ ?_
  · intro haccepts journal
    obtain ⟨hsize, hend⟩ := Feed.accepts_le_length hrange haccepts
    have hle : progress.cursor ≤ progress.cursor + Feed.tokenLength token length := by omega
    rw [if_pos rfl]
    exact Attempt.ensures_matchFrom_bind hrange.1 hle ⟨rfl, rfl, hle, hend⟩
  · intro _ journal
    exact rfl

theorem character_keeps (value : Text) : (character value).Keeps gaveUp source := by
  intro progress hrange
  unfold character
  rw [Attempt.ensures_position_bind]
  exact ensures_consume_token hrange

theorem pattern_keeps (p : Pattern) : (pattern p).Keeps gaveUp source := by
  intro progress hrange
  unfold pattern
  refine Attempt.ensures_lookahead_bind fun journal => ?_
  split
  next => exact rfl
  next found _ =>
    rw [Attempt.ensures_position_bind]
    exact ensures_consume_token hrange

/-! ## Combinators -/

theorem ensures_sequenceFrom {behaviours : List Behaviour}
    (h : ∀ b ∈ behaviours, b.Keeps gaveUp source) {start : Int} (hstart : 0 ≤ start)
    (collected : List Match) (hle : start ≤ progress.cursor)
    (hend : progress.cursor ≤ source.length) :
    (sequenceFrom start collected behaviours).Ensures source progress
      (contract gaveUp source start) := by
  induction behaviours generalizing collected progress with
  | nil =>
    unfold sequenceFrom
    exact Attempt.ensures_matchFrom_bind hstart hle ⟨rfl, rfl, hle, hend⟩
  | cons behaviour rest ih =>
    unfold sequenceFrom
    have hfirst := h behaviour (List.mem_cons_self ..)
    refine hfirst.bind ⟨Int.le_trans hstart hle, hend⟩ ?_ ?_ (fun _ hgaveUp => hgaveUp)
    · intro progress' _
      rw [Attempt.ensures_seek_bind]
      exact rfl
    · intro found progress' _ _ hmoved hrange
      exact ih (fun b hb => h b (List.mem_cons_of_mem _ hb)) _ (Int.le_trans hle hmoved) hrange.2

theorem sequence_keeps {behaviours : List Behaviour}
    (h : ∀ b ∈ behaviours, b.Keeps gaveUp source) : (sequence behaviours).Keeps gaveUp source := by
  intro progress hrange
  unfold sequence
  rw [Attempt.ensures_position_bind]
  exact ensures_sequenceFrom h hrange.1 [] (Int.le_refl _) hrange.2

theorem alternation_keeps {behaviours : List Behaviour}
    (h : ∀ b ∈ behaviours, b.Keeps gaveUp source) :
    (alternation behaviours).Keeps gaveUp source := by
  induction behaviours with
  | nil =>
    intro progress _
    exact rfl
  | cons behaviour rest ih =>
    intro progress hrange
    unfold alternation
    refine (h behaviour (List.mem_cons_self ..)).bind hrange ?_ ?_ (fun _ hgaveUp => hgaveUp)
    · intro progress' hcursor
      -- a branch that gives nothing has left the cursor alone, so the next one begins there
      have hrest := ih (fun b hb => h b (List.mem_cons_of_mem _ hb)) progress'
        (by rw [hcursor]; exact hrange)
      rw [hcursor] at hrest
      exact hrest
    · intro found progress' hstart hstop hle hrange'
      rw [← hstop] at hle hrange'
      exact ⟨hstart, hstop, hle, hrange'.2⟩

theorem ensures_endRepetition {least start : Int} {stalled : Bool} {collected : List Match}
    (hstart : 0 ≤ start) (hle : start ≤ progress.cursor)
    (hend : progress.cursor ≤ source.length) :
    (endRepetition least start stalled collected).Ensures source progress
      (contract gaveUp source start) := by
  unfold endRepetition
  split
  next =>
    exact Attempt.ensures_matchFrom_bind hstart hle ⟨rfl, rfl, hle, hend⟩
  next =>
    rw [Attempt.ensures_seek_bind]
    exact rfl

theorem ensures_boundedRounds {behaviour : Behaviour} (h : behaviour.Keeps gaveUp source)
    {least start : Int} (hstart : 0 ≤ start) (rounds : Nat) (collected : List Match)
    (hle : start ≤ progress.cursor) (hend : progress.cursor ≤ source.length) :
    (boundedRounds behaviour least start rounds collected).Ensures source progress
      (contract gaveUp source start) := by
  induction rounds generalizing collected progress with
  | zero => exact ensures_endRepetition hstart hle hend
  | succ rounds ih =>
    unfold boundedRounds
    refine h.bind ⟨Int.le_trans hstart hle, hend⟩ ?_ ?_ (fun _ hgaveUp => hgaveUp)
    · intro progress' hcursor
      rw [← hcursor] at hle hend
      exact ensures_endRepetition hstart hle hend
    · intro found progress' _ _ hmoved hrange
      exact ih _ (Int.le_trans hle hmoved) hrange.2

/-- A round that does not stall moves the cursor, so it is enough to allow for more rounds than
    there are characters left. -/
theorem ensures_unboundedRounds {behaviour : Behaviour} (h : behaviour.Keeps gaveUp source)
    {least start : Int} (hstart : 0 ≤ start) (rounds : Nat) (collected : List Match)
    (hle : start ≤ progress.cursor) (hend : progress.cursor ≤ source.length)
    (hrounds : gaveUp ∨ source.length < progress.cursor + rounds) :
    (unboundedRounds behaviour least start rounds collected).Ensures source progress
      (contract gaveUp source start) := by
  induction rounds generalizing collected progress with
  | zero =>
    rcases hrounds with hgaveUp | hfew
    · exact hgaveUp
    · omega
  | succ rounds ih =>
    unfold unboundedRounds
    rw [Attempt.ensures_position_bind]
    refine h.bind ⟨Int.le_trans hstart hle, hend⟩ ?_ ?_ (fun _ hgaveUp => hgaveUp)
    · intro progress' hcursor
      rw [← hcursor] at hle hend
      exact ensures_endRepetition hstart hle hend
    · intro found progress' _ _ hmoved hrange
      rw [Attempt.ensures_position_bind]
      -- one round fewer is left, and at least one character fewer unless the repetition stalls
      split
      next => exact ensures_endRepetition hstart (Int.le_trans hle hmoved) hrange.2
      next hne => exact ih _ (Int.le_trans hle hmoved) hrange.2 (hrounds.imp id (by omega))

theorem quantifier_keeps {behaviour : Behaviour} (h : behaviour.Keeps gaveUp source)
    {limit : Nat} (hlimit : gaveUp ∨ source.length < limit) (least : Int) (most : Option Int) :
    (quantifier limit behaviour least most).Keeps gaveUp source := by
  intro progress hrange
  unfold quantifier
  rw [Attempt.ensures_position_bind]
  have hstart := hrange.1
  cases most with
  | some most => exact ensures_boundedRounds h hstart most.toNat [] (Int.le_refl _) hrange.2
  | none =>
    exact ensures_unboundedRounds h hstart limit [] (Int.le_refl _) hrange.2
      (hlimit.imp id (by omega))

theorem optional_keeps {behaviour : Behaviour} (h : behaviour.Keeps gaveUp source) :
    (optional behaviour).Keeps gaveUp source := by
  intro progress hrange
  have hback : ∀ (outcome : Option Match) (progress' : Progress), Attempt.Ensures (do
      Attempt.seek progress.cursor
      return some (← Attempt.matchFrom (.ofOption outcome) progress.cursor)) source progress'
      (contract gaveUp source progress.cursor) := by
    intro outcome progress'
    rw [Attempt.ensures_seek_bind]
    refine Attempt.ensures_matchFrom_bind hrange.1 (Int.le_refl _) ?_
    exact ⟨rfl, rfl, Int.le_refl _, hrange.2⟩
  unfold optional
  rw [Attempt.ensures_position_bind]
  exact h.bind hrange (fun progress' _ => hback none progress')
    (fun found progress' _ _ _ _ => hback (some found) progress') (fun _ hgaveUp => hgaveUp)

theorem observed_keeps {behaviour : Behaviour} (h : behaviour.Keeps gaveUp source)
    (label : Text) : (observed label behaviour).Keeps gaveUp source := by
  intro progress hrange
  unfold observed
  rw [Attempt.ensures_note_bind]
  have hinner := h ⟨progress.cursor, ⟨.enter label, progress.cursor⟩ :: progress.journal⟩ hrange
  refine hinner.bind ?_ (fun _ _ hraised => hraised) (fun _ hgaveUp => hgaveUp)
  intro outcome progress' hreturned
  rw [Attempt.ensures_note_bind]
  cases outcome with
  | none => exact hreturned
  | some found => exact hreturned

end Behaviour

/-! ## Matchers -/

variable {κ : Type}

/-- A block is any number of blocks in parentheses. -/
def Grammar.blocks : Grammar Callee :=
  Grammar.ofRules [(['b'], .seq [.char ['('], .quant (.call (.rule ['b'])) 0 none, .char [')']])]

/-- A matcher of any one character keeps the contract, and always returns. -/
theorem Probe.any_keeps (gaveUp : Prop) (source : Text) : any.behaviour.Keeps gaveUp source := by
  intro progress hrange
  unfold Probe.behaviour
  rw [Attempt.ensures_position_bind]
  refine Attempt.ensures_lookahead_bind fun journal => ?_
  split
  next => exact rfl
  next => exact Behaviour.ensures_consume_token hrange

theorem Probe.any_wellBehaved (source : Text) : any.behaviour.WellBehaved source :=
  any_keeps True source

end CursorGrammar
