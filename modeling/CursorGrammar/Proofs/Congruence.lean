import CursorGrammar.Behaviour

set_option autoImplicit false

/-! # Congruences

A relation between attempts is a congruence if it holds between a step and itself for all steps
that matchers are made of, and between attempts that go on with related attempts after related
ones. Then a leaf is related to itself, and combinators with related members are related, as they
make of their members nothing but such steps. A property of attempts is a relation as well, which
says nothing of the second attempt.

Going back and making a match are steps that depend on where the matcher was called, and some
relations only hold for that one offset. So a congruence is one for matchers called there. -/

namespace CursorGrammar

/-- A relation between attempts that respects the steps of matchers called at `start`. -/
structure Attempt.Congruence (related : (α : Type) → Attempt α → Attempt α → Prop)
    (start : Int) : Prop where
  pure {α : Type} (value : α) : related α (pure value) (pure value)
  bind {α β : Type} {attempt attempt' : Attempt α} {next next' : α → Attempt β} :
    related α attempt attempt' → (∀ value, related β (next value) (next' value)) →
      related β (attempt >>= next) (attempt' >>= next')
  position : related Int position position
  lookahead (window : Option Int) : related Text (lookahead window) (lookahead window)
  consume (token : Text) (length : Option Int) :
    related Bool (consume token length) (consume token length)
  seek : related Unit (seek start) (seek start)
  matchFrom (value : Value) : related Match (matchFrom value start) (matchFrom value start)

namespace Behaviour

open Attempt

variable {related : (α : Type) → Attempt α → Attempt α → Prop}
variable {ι : Type} {members : List ι} {inner inner' : ι → Behaviour}
variable {behaviour behaviour' : Behaviour} {start least : Int}

/-! ## Matchers called at one offset -/

section Start

variable (hrel : Congruence related start)

include hrel

theorem some_matchFrom_related (value : Value) :
    related _ (do return some (← matchFrom value start))
      (do return some (← matchFrom value start)) :=
  hrel.bind (hrel.matchFrom value) fun found => hrel.pure (some found)

theorem token_related (value : Value) (token : Text) (length : Option Int) :
    related _
      (do
        if ← consume token length then return some (← matchFrom value start)
        else return none)
      (do
        if ← consume token length then return some (← matchFrom value start)
        else return none) := by
  refine hrel.bind (hrel.consume token length) fun accepted => ?_
  split
  next => exact some_matchFrom_related hrel value
  next => exact hrel.pure none

theorem seek_none_related :
    related (Option Match)
      (do
        seek start
        return none)
      (do
        seek start
        return none) :=
  hrel.bind hrel.seek fun _ => hrel.pure none

theorem sequenceFrom_related (h : ∀ i ∈ members, related _ (inner i) (inner' i))
    (collected : List Match) :
    related _ (sequenceFrom start collected (members.map inner))
      (sequenceFrom start collected (members.map inner')) := by
  induction members generalizing collected with
  | nil => exact some_matchFrom_related hrel _
  | cons i rest ih =>
    refine hrel.bind (h i (List.mem_cons_self ..)) fun outcome => ?_
    cases outcome with
    | none => exact seek_none_related hrel
    | some found => exact ih (fun j hj => h j (List.mem_cons_of_mem _ hj)) (found :: collected)

theorem alternation_related (h : ∀ i ∈ members, related _ (inner i) (inner' i)) :
    related _ (alternation (members.map inner)) (alternation (members.map inner')) := by
  induction members with
  | nil => exact hrel.pure none
  | cons i rest ih =>
    refine hrel.bind (h i (List.mem_cons_self ..)) fun outcome => ?_
    cases outcome with
    | none => exact ih fun j hj => h j (List.mem_cons_of_mem _ hj)
    | some found => exact hrel.pure (some found)

theorem endRepetition_related (stalled : Bool) (collected : List Match) :
    related _ (endRepetition least start stalled collected)
      (endRepetition least start stalled collected) := by
  unfold endRepetition
  split
  next => exact some_matchFrom_related hrel _
  next => exact seek_none_related hrel

theorem boundedRounds_related (h : related _ behaviour behaviour') (rounds : Nat)
    (collected : List Match) :
    related _ (boundedRounds behaviour least start rounds collected)
      (boundedRounds behaviour' least start rounds collected) := by
  induction rounds generalizing collected with
  | zero => exact endRepetition_related hrel false collected
  | succ rounds ih =>
    refine hrel.bind h fun outcome => ?_
    cases outcome with
    | none => exact endRepetition_related hrel false collected
    | some found => exact ih (found :: collected)

/-- The other repetition may have more rounds left when this one is given up, if giving up is
    related to whatever they do. -/
theorem unboundedRounds_related (h : related _ behaviour behaviour') {more : Nat}
    (hmore : ∀ collected, related _ exhaust (unboundedRounds behaviour' least start more collected))
    (rounds : Nat) (collected : List Match) :
    related _ (unboundedRounds behaviour least start rounds collected)
      (unboundedRounds behaviour' least start (rounds + more) collected) := by
  induction rounds generalizing collected with
  | zero =>
    rw [Nat.zero_add]
    exact hmore collected
  | succ rounds ih =>
    rw [Nat.succ_add]
    refine hrel.bind hrel.position fun before => hrel.bind h fun outcome => ?_
    cases outcome with
    | none => exact endRepetition_related hrel false collected
    | some found =>
      refine hrel.bind hrel.position fun after => ?_
      split
      next => exact endRepetition_related hrel true (found :: collected)
      next => exact ih (found :: collected)

end Start

/-! ## Matchers called anywhere -/

section Anywhere

variable (hrel : ∀ start, Congruence related start)

include hrel

theorem character_related (value : Text) : related _ (character value) (character value) :=
  (hrel 0).bind (hrel 0).position fun start => token_related (hrel start) _ value (some 1)

theorem pattern_related (p : Pattern) : related _ (pattern p) (pattern p) := by
  refine (hrel 0).bind ((hrel 0).lookahead none) fun shown => ?_
  split
  next => exact (hrel 0).pure none
  next found _ =>
    exact (hrel 0).bind (hrel 0).position fun start => token_related (hrel start) _ found _

theorem sequence_related (h : ∀ i ∈ members, related _ (inner i) (inner' i)) :
    related _ (sequence (members.map inner)) (sequence (members.map inner')) :=
  (hrel 0).bind (hrel 0).position fun start => sequenceFrom_related (hrel start) h []

theorem quantifier_related (h : related _ behaviour behaviour') (limit more : Nat)
    (hmore : ∀ start collected,
      related _ exhaust (unboundedRounds behaviour' least start more collected))
    (most : Option Int) :
    related _ (quantifier limit behaviour least most)
      (quantifier (limit + more) behaviour' least most) := by
  refine (hrel 0).bind (hrel 0).position fun start => ?_
  cases most with
  | some most => exact boundedRounds_related (hrel start) h most.toNat []
  | none => exact unboundedRounds_related (hrel start) h (hmore start) limit []

theorem optional_related (h : related _ behaviour behaviour') :
    related _ (optional behaviour) (optional behaviour') :=
  (hrel 0).bind (hrel 0).position fun start => (hrel start).bind h fun _ =>
    (hrel start).bind (hrel start).seek fun _ => some_matchFrom_related (hrel start) _

end Anywhere

/-! ## Properties of combinators -/

section Properties

variable {property : (α : Type) → Attempt α → Prop}
variable (hprop : Congruence (fun α attempt _ => property α attempt) start)

include hprop

theorem sequenceFrom_of_congruence (h : ∀ i ∈ members, property _ (inner i))
    (collected : List Match) : property _ (sequenceFrom start collected (members.map inner)) :=
  @sequenceFrom_related _ _ _ inner inner _ hprop h collected

theorem alternation_of_congruence (h : ∀ i ∈ members, property _ (inner i)) :
    property _ (alternation (members.map inner)) :=
  @alternation_related _ _ _ inner inner _ hprop h

theorem boundedRounds_of_congruence (h : property _ behaviour) (rounds : Nat)
    (collected : List Match) :
    property _ (boundedRounds behaviour least start rounds collected) :=
  @boundedRounds_related _ behaviour behaviour _ _ hprop h rounds collected

theorem unboundedRounds_of_congruence (h : property _ behaviour)
    (hexhaust : property (Option Match) exhaust) (rounds : Nat) (collected : List Match) :
    property _ (unboundedRounds behaviour least start rounds collected) :=
  @unboundedRounds_related _ behaviour behaviour _ _ hprop h 0 (fun _ => hexhaust) rounds collected

end Properties

/-! ## Properties of combinators called anywhere -/

section PropertiesAnywhere

variable {property : (α : Type) → Attempt α → Prop}
variable (hprop : ∀ start, Congruence (fun α attempt _ => property α attempt) start)

include hprop

theorem sequence_of_congruence (h : ∀ i ∈ members, property _ (inner i)) :
    property _ (sequence (members.map inner)) :=
  @sequence_related _ _ _ inner inner hprop h

theorem quantifier_of_congruence (h : property _ behaviour)
    (hexhaust : property (Option Match) exhaust) (limit : Nat) (least : Int) (most : Option Int) :
    property _ (quantifier limit behaviour least most) :=
  @quantifier_related _ behaviour behaviour least hprop h limit 0 (fun _ _ => hexhaust) most

theorem optional_of_congruence (h : property _ behaviour) : property _ (optional behaviour) :=
  @optional_related _ behaviour behaviour hprop h

end PropertiesAnywhere

end Behaviour

end CursorGrammar
