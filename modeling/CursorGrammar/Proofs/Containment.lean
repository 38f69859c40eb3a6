import CursorGrammar.Probe
import CursorGrammar.Proofs.Ensures

set_option autoImplicit false

/-! # Containment of failures

A user's matcher may move the cursor and then give nothing. A sequence, a repetition and an option
put the cursor back over whatever their members have done to it, wherever it was, inside the text
or outside; an alternation does not. So a tree that gives nothing leaves the cursor where it was if
those calls do so that have nothing but alternations above them. -/

namespace CursorGrammar

namespace Behaviour

/-- Wherever the behaviour is called on the text, the cursor is there again if it gives nothing. -/
def Restores (source : Text) (behaviour : Behaviour) : Prop :=
  ∀ progress progress' : Progress,
    behaviour source progress = (.returned none, progress') → progress'.cursor = progress.cursor

/-- If nothing is given, the cursor is at `start`. -/
abbrev nothingAt (start : Int) : Post (Option Match) :=
  .ifReturned fun outcome progress => outcome = none → progress.cursor = start

variable {source : Text} {progress : Progress} {start : Int}

theorem restores_iff {behaviour : Behaviour} :
    behaviour.Restores source ↔
      ∀ progress : Progress, behaviour.Ensures source progress (nothingAt progress.cursor) := by
  simp only [Attempt.ensures_ifReturned_iff]
  constructor
  · rintro h progress _ progress' hrun rfl
    exact h progress progress' hrun
  · intro h progress progress' hrun
    exact h progress none progress' hrun rfl

/-! ## Frames

All matchers but alternations and calls say where their match begins and ends, and put the cursor
back if there is none. They do so wherever they are called and whatever their members do. -/

/-- Nothing is given with the cursor at `start`, or a match from there to the cursor. -/
abbrev framedAt (start : Int) : Post (Option Match) :=
  .ifReturned fun outcome progress =>
    match outcome with
    | none => progress.cursor = start
    | some found => found.span.start = start ∧ found.span.stop = progress.cursor

/-- Wherever the behaviour is called on the text, it gives nothing with the cursor there again, or a
    match from there to the cursor. -/
def Frames (source : Text) (behaviour : Behaviour) : Prop :=
  ∀ progress : Progress, behaviour.Ensures source progress (framedAt progress.cursor)

theorem Frames.restores {behaviour : Behaviour} (h : behaviour.Frames source) :
    behaviour.Restores source := by
  rw [restores_iff]
  intro progress
  refine (h progress).mono ?_ (fun _ _ _ => trivial) (fun _ _ => trivial)
  rintro outcome progress' hframed rfl
  exact hframed

theorem ensures_matchFrom_framed {value : Value} :
    Attempt.Ensures (do return some (← Attempt.matchFrom value start)) source progress
      (framedAt start) :=
  Attempt.ensures_matchFrom_bind_ifReturned fun _ hstart hstop => ⟨hstart, hstop⟩

/-- Nothing is given with the cursor put back. -/
theorem ensures_seek_framed :
    Attempt.Ensures (do
      Attempt.seek start
      return none) source progress (framedAt start) := by
  rw [Attempt.ensures_seek_bind]
  exact rfl

/-! ### Leaves -/

theorem ensures_consume_framed {value : Value} {token : Text} {length : Option Int} :
    Attempt.Ensures (do
      if ← Attempt.consume token length then
        return some (← Attempt.matchFrom value progress.cursor)
      else return none) source progress (framedAt progress.cursor) := by
  refine Attempt.ensures_consume_bind ?_ ?_
  · intro _ journal
    exact ensures_matchFrom_framed
  · intro _ journal
    exact rfl

theorem character_frames (value : Text) : (character value).Frames source := by
  intro progress
  unfold character
  rw [Attempt.ensures_position_bind]
  exact ensures_consume_framed

theorem pattern_frames (p : Pattern) : (pattern p).Frames source := by
  intro progress
  unfold pattern
  refine Attempt.ensures_lookahead_bind fun journal => ?_
  split
  next => exact rfl
  next =>
    rw [Attempt.ensures_position_bind]
    exact ensures_consume_framed

/-! ### Combinators -/

theorem sequenceFrom_framed (behaviours : List Behaviour) (collected : List Match) :
    (sequenceFrom start collected behaviours).Ensures source progress (framedAt start) := by
  induction behaviours generalizing collected progress with
  | nil =>
    unfold sequenceFrom
    exact ensures_matchFrom_framed
  | cons behaviour rest ih =>
    unfold sequenceFrom
    refine Attempt.ensures_bind_of_forall fun outcome progress' => ?_
    cases outcome with
    | none => exact ensures_seek_framed
    | some found => exact ih (found :: collected)

theorem sequence_frames (behaviours : List Behaviour) :
    (sequence behaviours).Frames source := by
  intro progress
  unfold sequence
  rw [Attempt.ensures_position_bind]
  exact sequenceFrom_framed behaviours []

theorem endRepetition_framed {least : Int} {stalled : Bool} {collected : List Match} :
    (endRepetition least start stalled collected).Ensures source progress (framedAt start) := by
  unfold endRepetition
  split
  next => exact ensures_matchFrom_framed
  next => exact ensures_seek_framed

theorem boundedRounds_framed (behaviour : Behaviour) (least : Int) (rounds : Nat)
    (collected : List Match) :
    (boundedRounds behaviour least start rounds collected).Ensures source progress
      (framedAt start) := by
  induction rounds generalizing collected progress with
  | zero => exact endRepetition_framed
  | succ rounds ih =>
    unfold boundedRounds
    refine Attempt.ensures_bind_of_forall fun outcome progress' => ?_
    cases outcome with
    | none => exact endRepetition_framed
    | some found => exact ih (found :: collected)

theorem unboundedRounds_framed (behaviour : Behaviour) (least : Int) (rounds : Nat)
    (collected : List Match) :
    (unboundedRounds behaviour least start rounds collected).Ensures source progress
      (framedAt start) := by
  induction rounds generalizing collected progress with
  | zero => exact trivial
  | succ rounds ih =>
    unfold unboundedRounds
    rw [Attempt.ensures_position_bind]
    refine Attempt.ensures_bind_of_forall fun outcome progress' => ?_
    cases outcome with
    | none => exact endRepetition_framed
    | some found =>
      rw [Attempt.ensures_position_bind]
      split
      next => exact endRepetition_framed
      next => exact ih (found :: collected)

theorem quantifier_frames (limit : Nat) (behaviour : Behaviour) (least : Int)
    (most : Option Int) : (quantifier limit behaviour least most).Frames source := by
  intro progress
  unfold quantifier
  rw [Attempt.ensures_position_bind]
  cases most with
  | some most => exact boundedRounds_framed behaviour least most.toNat []
  | none => exact unboundedRounds_framed behaviour least limit []

/-- An option always gives a match, and the match covers nothing. -/
theorem optional_frames (behaviour : Behaviour) : (optional behaviour).Frames source := by
  intro progress
  unfold optional
  rw [Attempt.ensures_position_bind]
  refine Attempt.ensures_bind_of_forall fun outcome progress' => ?_
  rw [Attempt.ensures_seek_bind]
  exact ensures_matchFrom_framed

/-! ## What restores the cursor -/

theorem character_restores (value : Text) : (character value).Restores source :=
  (character_frames value).restores

theorem pattern_restores (p : Pattern) : (pattern p).Restores source :=
  (pattern_frames p).restores

theorem sequence_restores (behaviours : List Behaviour) :
    (sequence behaviours).Restores source :=
  (sequence_frames behaviours).restores

theorem quantifier_restores (limit : Nat) (behaviour : Behaviour) (least : Int)
    (most : Option Int) : (quantifier limit behaviour least most).Restores source :=
  (quantifier_frames limit behaviour least most).restores

theorem optional_restores (behaviour : Behaviour) : (optional behaviour).Restores source :=
  (optional_frames behaviour).restores

/-- An alternation is no better than its branches: each is tried where the one before it has left
    the cursor. -/
theorem alternation_restores {behaviours : List Behaviour}
    (h : ∀ b ∈ behaviours, b.Restores source) : (alternation behaviours).Restores source := by
  rw [restores_iff]
  induction behaviours with
  | nil =>
    intro progress _
    exact rfl
  | cons behaviour rest ih =>
    intro progress
    unfold alternation
    have hfirst := restores_iff.1 (h behaviour (List.mem_cons_self ..)) progress
    refine hfirst.bind ?_ (fun _ _ _ => trivial) (fun _ _ => trivial)
    intro outcome progress' hcursor
    cases outcome with
    | none =>
      have hrest := ih (fun b hb => h b (List.mem_cons_of_mem _ hb)) progress'
      rw [hcursor rfl] at hrest
      exact hrest
    | some found => exact fun hnone => nomatch hnone

end Behaviour

/-! ## Matchers -/

variable {κ : Type}

/-- The matcher has this call in it with nothing but alternations above. -/
inductive Matcher.Exposed : Matcher κ → κ → Prop
  | call (target : κ) : Exposed (.call target) target
  | alt {matchers : List (Matcher κ)} {matcher : Matcher κ} {target : κ}
      (hmem : matcher ∈ matchers) (h : Exposed matcher target) : Exposed (.alt matchers) target

namespace Matcher

variable {target : κ}

@[simp]
theorem exposed_call_iff {k : κ} : (call k).Exposed target ↔ target = k := by
  constructor
  · rintro ⟨⟩
    rfl
  · rintro rfl
    exact .call target

@[simp]
theorem exposed_alt_iff {matchers : List (Matcher κ)} :
    (alt matchers).Exposed target ↔ ∃ m ∈ matchers, m.Exposed target := by
  constructor
  · rintro ⟨⟩
    next m hmem h => exact ⟨m, hmem, h⟩
  · rintro ⟨m, hmem, h⟩
    exact .alt hmem h

/-! The other combinators are barriers. -/

@[simp]
theorem not_exposed_seq {matchers : List (Matcher κ)} : ¬(seq matchers).Exposed target :=
  nofun

@[simp]
theorem not_exposed_quant {matcher : Matcher κ} {least : Int} {most : Option Int} :
    ¬(quant matcher least most).Exposed target :=
  nofun

@[simp]
theorem not_exposed_opt {matcher : Matcher κ} : ¬(opt matcher).Exposed target :=
  nofun

end Matcher

/-- A matcher that gives nothing leaves the cursor where it was, if its exposed calls do so. -/
theorem Matcher.restores_of_exposed (grammar : Grammar κ) (source : Text) (matcher : Matcher κ)
    (h : ∀ target, matcher.Exposed target → ∀ limits,
      ((Matcher.call target).behaviour grammar limits).Restores source) (limits : Limits) :
    (matcher.behaviour grammar limits).Restores source := by
  obtain ⟨nesting, rounds⟩ := limits
  show (matcher.behave grammar rounds nesting).Restores source
  induction nesting generalizing matcher with
  | zero =>
    intro progress progress' hrun
    cases hrun
  | succ nesting ih =>
    cases matcher with
    | char value => exact Behaviour.character_restores value
    | pattern p => exact Behaviour.pattern_restores p
    | seq matchers => exact Behaviour.sequence_restores _
    | alt matchers =>
      refine Behaviour.alternation_restores ?_
      intro behaviour hbehaviour
      obtain ⟨branch, hbranch, rfl⟩ := List.mem_map.1 hbehaviour
      exact ih branch fun target hexposed => h target (.alt hbranch hexposed)
    | quant matcher least most => exact Behaviour.quantifier_restores rounds _ least most
    | opt matcher => exact Behaviour.optional_restores _
    | call target => exact h target (.call target) ⟨nesting + 1, rounds⟩

/-- A call that gives nothing is exposed, and one that leaks what it has read is not. -/
theorem Matcher.restores_with_leaky_members :
    let matcher : Matcher Callee := .alt [.call (.probe .fail),
      .seq [.call (.probe .any), .call (.probe .leaky)],
      .alt [.quant (.call (.probe .leaky)) 1 none]]
    (∀ target, matcher.Exposed target → ∀ limits,
      ((Matcher.call target).behaviour (Grammar.ofRules []) limits).Restores ['a', 'b', 'c']) ∧
    (matcher.behaviour (Grammar.ofRules []) .wide).Restores ['a', 'b', 'c'] := by
  intro matcher
  have h : ∀ target, matcher.Exposed target → ∀ limits,
      ((Matcher.call target).behaviour (Grammar.ofRules []) limits).Restores ['a', 'b', 'c'] := by
    rintro target hexposed ⟨nesting, rounds⟩ progress progress' hrun
    have htarget : target = .probe .fail := by simpa [matcher] using hexposed
    subst htarget
    cases nesting with
    | zero => cases hrun
    | succ nesting =>
      cases hrun
      rfl
  exact ⟨h, Matcher.restores_of_exposed _ _ matcher h .wide⟩

/-- A leak that is exposed shows. -/
example : ((Matcher.alt [.call (.probe .fail), .call (.probe .leaky)]).behaviour
    (Grammar.ofRules []) ⟨2, 0⟩ ['a', 'b', 'c'] ⟨0, []⟩).2.cursor = 1 := rfl

end CursorGrammar
