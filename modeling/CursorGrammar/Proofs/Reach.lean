import Mathlib.Algebra.Ring.Nat
import CursorGrammar.Proofs.Ensures
import CursorGrammar.Proofs.Refinement

set_option autoImplicit false

/-! # Reach

A matcher without patterns and calls, all of whose repetitions have an upper bound, looks only so
far ahead, and how far is in the tree. What the text goes on with after that makes no difference,
not even whether it goes on: on two texts that are the same that far, the runs are the same.

Such runs share a budget. Up to a fixed place the texts are the same, and every member that is
called may use up its reach of the characters before that place. A member that gives nothing has
given back what it used, as the cursor is where it was. -/

namespace CursorGrammar

variable {κ : Type}

namespace Matcher

/-! ## How far a matcher looks -/

/-- A matcher made of characters, sequences, alternations, options, and repetitions with an upper
    bound. -/
inductive Bounded : Matcher κ → Prop
  | char (value : Text) : Bounded (.char value)
  | seq {matchers : List (Matcher κ)} (h : ∀ m ∈ matchers, Bounded m) : Bounded (.seq matchers)
  | alt {matchers : List (Matcher κ)} (h : ∀ m ∈ matchers, Bounded m) : Bounded (.alt matchers)
  | quant {matcher : Matcher κ} {least most : Int} (h : Bounded matcher) :
      Bounded (.quant matcher least (some most))
  | opt {matcher : Matcher κ} (h : Bounded matcher) : Bounded (.opt matcher)

theorem Bounded.plain {matcher : Matcher κ} (h : matcher.Bounded) : matcher.Plain := by
  induction h with
  | char value => exact .char value
  | seq _ ih => exact .seq ih
  | alt _ ih => exact .alt ih
  | quant _ ih => exact .quant ih
  | opt _ ih => exact .opt ih

mutual

/-- How many characters from the cursor on a bounded matcher looks at. Of the other matchers it
    tells nothing. -/
def reach : Matcher κ → Nat
  | char _ => 1
  | pattern _ => 0
  | seq matchers => sumReach matchers
  | alt matchers => maxReach matchers
  | quant matcher _ (some most) => most.toNat * reach matcher
  | quant _ _ none => 0
  | opt matcher => reach matcher
  | call _ => 0

/-- How far the matchers look one after the other. -/
def sumReach : List (Matcher κ) → Nat
  | [] => 0
  | matcher :: rest => reach matcher + sumReach rest

/-- How far the matcher looks that looks furthest, and zero if there is none. -/
def maxReach : List (Matcher κ) → Nat
  | [] => 0
  | matcher :: rest => max (reach matcher) (maxReach rest)

end

theorem reach_le_maxReach {matcher : Matcher κ} {matchers : List (Matcher κ)}
    (h : matcher ∈ matchers) : matcher.reach ≤ maxReach matchers := by
  induction matchers with
  | nil => cases h
  | cons first rest ih =>
    rw [maxReach]
    rcases List.mem_cons.1 h with rfl | hrest
    · exact Nat.le_max_left _ _
    · exact Nat.le_trans (ih hrest) (Nat.le_max_right _ _)

end Matcher

/-! ## Texts that go on alike -/

/-- The two texts go on in the same way from the cursor on up to `stop`, and that is `size`
    characters away or more. -/
structure Text.Shared (source source' : Text) (stop : Int) (size : Nat) (cursor : Int) : Prop where
  inRange : source.InRange cursor
  inRange' : source'.InRange cursor
  slice_eq : source.slice cursor stop = source'.slice cursor stop
  room : cursor + size ≤ stop

namespace Text.Shared

variable {source source' : Text} {stop : Int} {size : Nat} {cursor : Int}

theorem mono (h : Shared source source' stop size cursor) {size' : Nat} (hle : size' ≤ size) :
    Shared source source' stop size' cursor :=
  ⟨h.inRange, h.inRange', h.slice_eq, by have := h.room; omega⟩

/-- Texts that go on alike go on alike up to any place before `stop`, and from there. -/
theorem cut (h : Shared source source' stop size cursor) {middle : Int} (hle : cursor ≤ middle)
    (hstop : middle ≤ stop) :
    source.slice cursor middle = source'.slice cursor middle ∧
      source.slice middle stop = source'.slice middle stop := by
  have hcursor : 0 ≤ cursor := h.inRange.1
  have hparts : source.slice cursor middle ++ source.slice middle stop
      = source'.slice cursor middle ++ source'.slice middle stop := by
    rw [slice_append_slice source hcursor hle hstop, slice_append_slice source' hcursor hle hstop]
    exact h.slice_eq
  -- the texts end together, if they end before `stop`
  have hlength := congrArg List.length h.slice_eq
  have hposition : ∀ {n : Nat} {i : Int}, 0 ≤ i → position n i = min i.toNat n :=
    fun hi => if_neg (Int.not_lt.2 hi)
  refine List.append_inj hparts ?_
  rw [length_slice, length_slice, hposition hcursor, hposition hcursor,
    hposition (by omega), hposition (by omega)] at hlength ⊢
  omega

/-- Of a token of one character, both texts tell the same. -/
theorem accepts_eq (h : Shared source source' stop (1 + size) cursor) (token : Text) :
    Feed.accepts ⟨source', cursor⟩ token (some 1) = Feed.accepts ⟨source, cursor⟩ token (some 1) := by
  have hroom := h.room
  obtain ⟨hnext, -⟩ := h.cut (by omega) (show cursor + 1 ≤ stop by omega)
  simp only [Feed.accepts, Feed.tokenLength, Option.getD_some, hnext]

theorem advance (h : Shared source source' stop (1 + size) cursor)
    (hend : cursor + 1 ≤ source.length) : Shared source source' stop size (cursor + 1) := by
  have hroom := h.room
  obtain ⟨hnext, hrest⟩ := h.cut (by omega) (show cursor + 1 ≤ stop by omega)
  have hcursor : 0 ≤ cursor := h.inRange.1
  have hlength := congrArg List.length hnext
  rw [length_slice, length_slice, position_of_mem hcursor h.inRange.2,
    position_of_mem hcursor h.inRange'.2, position_of_mem (by omega) hend] at hlength
  have hle := position_le source'.length (cursor + 1)
  exact ⟨⟨by omega, hend⟩, ⟨by omega, by omega⟩, hrest, by omega⟩

end Text.Shared

/-! ## Attempts that stay in step -/

namespace Attempt

variable {α β : Type} {source source' : Text} {stop : Int}

/-- With `need` characters left that the texts share, the attempt does the same on both texts, and
    if it returns a value, then `left` tells how many of them are left. -/
def InStep (source source' : Text) (stop : Int) (need : Nat) (left : α → Nat)
    (attempt : Attempt α) : Prop :=
  ∀ progress : Progress, Text.Shared source source' stop need progress.cursor →
    attempt source' progress = attempt source progress ∧
      attempt.Ensures source progress (.ifReturned fun value progress' =>
        Text.Shared source source' stop (left value) progress'.cursor)

theorem InStep.bind {attempt : Attempt α} {next : α → Attempt β} {need : Nat} {middle : α → Nat}
    {left : β → Nat} (h : attempt.InStep source source' stop need middle)
    (hnext : ∀ value, (next value).InStep source source' stop (middle value) left) :
    (attempt >>= next).InStep source source' stop need left := by
  intro progress hshared
  obtain ⟨hsame, hafter⟩ := h progress hshared
  refine ⟨?_, ensures_bind_of_returned fun value progress' hrun =>
    (hnext value progress' (hafter.of_returned hrun)).2⟩
  show andThen attempt next source' progress = andThen attempt next source progress
  unfold andThen
  rw [hsame]
  cases hrun : attempt source progress with
  | mk ending progress' =>
    cases ending with
    | returned value => exact (hnext value progress' (hafter.of_returned hrun)).1
    | raised fault => rfl
    | exhausted => rfl

variable {need : Nat}

theorem inStep_pure {left : α → Nat} {value : α} (hleft : left value ≤ need) :
    (pure value : Attempt α).InStep source source' stop need left :=
  fun _ hshared => ⟨rfl, hshared.mono hleft⟩

theorem inStep_exhaust {left : α → Nat} :
    (exhaust : Attempt α).InStep source source' stop need left :=
  fun _ _ => ⟨rfl, trivial⟩

/-- What comes after reading the cursor may go back there. -/
theorem inStep_position_bind {left : β → Nat} {next : Int → Attempt β}
    (h : ∀ start, Text.Shared source source' stop need start →
      (next start).InStep source source' stop need left) :
    (position >>= next).InStep source source' stop need left :=
  fun progress hshared => h progress.cursor hshared progress hshared

theorem inStep_seek {size : Nat} {cursor : Int}
    (hshared : Text.Shared source source' stop size cursor) :
    (seek cursor).InStep source source' stop need fun _ => size :=
  fun _ _ => ⟨rfl, hshared⟩

/-- Asking for one character may use up one. -/
theorem inStep_consume_one {left : Nat} (token : Text) :
    (consume token (some 1)).InStep source source' stop (1 + left)
      fun accepted => if accepted then left else 1 + left := by
  intro progress hshared
  have hsame : Feed.accepts ⟨source', progress.cursor⟩ token (some 1)
      = Feed.accepts ⟨source, progress.cursor⟩ token (some 1) := hshared.accepts_eq token
  unfold Ensures consume Feed.consume
  rw [hsame]
  cases haccepts : Feed.accepts ⟨source, progress.cursor⟩ token (some 1) with
  | true =>
    obtain ⟨-, hend⟩ := Feed.accepts_le_length hshared.inRange haccepts
    exact ⟨rfl, hshared.advance hend⟩
  | false => exact ⟨rfl, hshared⟩

theorem inStep_matchFrom {value : Value} {start : Int} :
    (matchFrom value start).InStep source source' stop need fun _ => need := by
  refine inStep_position_bind fun cursor _ => ?_
  unfold matchBetween
  split
  next => exact inStep_pure (Nat.le_refl need)
  next => exact fun _ _ => ⟨rfl, trivial⟩

end Attempt

namespace Behaviour

open Attempt

variable {source source' : Text} {stop : Int} {reach need left : Nat}

/-- What is left of `need` characters: all of them if there is no match, as the cursor is where it
    was, and `left` if there is one. -/
def roomAfter (need left : Nat) : Option Match → Nat
  | none => need
  | some _ => left

/-- The behaviour does the same on both texts, and its matches use up `reach` of the characters
    that the texts share. -/
def LooksUpTo (source source' : Text) (stop : Int) (reach : Nat) (behaviour : Behaviour) : Prop :=
  ∀ left, behaviour.InStep source source' stop (reach + left) (roomAfter (reach + left) left)

/-- A matcher that looks less far leaves more. -/
theorem LooksUpTo.inStep {behaviour : Behaviour} (h : behaviour.LooksUpTo source source' stop reach)
    {more : Nat} (hneed : reach + more = need) (hleft : left ≤ more) :
    behaviour.InStep source source' stop need (roomAfter need left) := by
  subst hneed
  intro progress hshared
  obtain ⟨hsame, hafter⟩ := h more progress hshared
  refine ⟨hsame, hafter.mono ?_ (fun _ _ h => h) (fun _ h => h)⟩
  intro outcome progress' hshared'
  cases outcome with
  | none => exact hshared'
  | some found => exact hshared'.mono hleft

theorem inStep_some_matchFrom {value : Value} {start : Int} {back : Nat} (hleft : left ≤ need) :
    InStep source source' stop need (roomAfter back left)
      (do return some (← matchFrom value start)) :=
  inStep_matchFrom.bind fun _ => inStep_pure hleft

theorem inStep_none_seek {start : Int} (hstart : Text.Shared source source' stop reach start) :
    InStep source source' stop need (roomAfter reach left)
      (do
        seek start
        return none) :=
  (inStep_seek hstart).bind fun _ => inStep_pure (Nat.le_refl reach)

/-! ## Bounded matchers -/

theorem character_looksUpTo (value : Text) : (character value).LooksUpTo source source' stop 1 := by
  intro left
  refine inStep_position_bind fun start _ => (inStep_consume_one value).bind fun accepted => ?_
  cases accepted with
  | true => exact inStep_some_matchFrom (Nat.le_refl left)
  | false => exact inStep_pure (Nat.le_refl (1 + left))

theorem sequenceFrom_inStep {ι : Type} {inner : ι → Behaviour} {reachOf : ι → Nat} {members : List ι}
    (h : ∀ i ∈ members, (inner i).LooksUpTo source source' stop (reachOf i)) {start : Int}
    (hstart : Text.Shared source source' stop reach start) (collected : List Match) :
    (sequenceFrom start collected (members.map inner)).InStep source source' stop
      ((members.map reachOf).sum + left) (roomAfter reach left) := by
  induction members generalizing collected with
  | nil => exact inStep_some_matchFrom (Nat.le_add_left left _)
  | cons i rest ih =>
    rw [List.map_cons, List.map_cons, List.sum_cons, Nat.add_assoc]
    refine (h i (List.mem_cons_self ..) _).bind fun outcome => ?_
    cases outcome with
    | none => exact inStep_none_seek hstart
    | some found => exact ih (fun j hj => h j (List.mem_cons_of_mem _ hj)) (found :: collected)

theorem sequence_looksUpTo {ι : Type} {inner : ι → Behaviour} {reachOf : ι → Nat} {members : List ι}
    (h : ∀ i ∈ members, (inner i).LooksUpTo source source' stop (reachOf i)) :
    (sequence (members.map inner)).LooksUpTo source source' stop (members.map reachOf).sum :=
  fun _ => inStep_position_bind fun _ hstart => sequenceFrom_inStep h hstart []

theorem alternation_looksUpTo {behaviours : List Behaviour}
    (h : ∀ b ∈ behaviours, ∃ less ≤ reach, b.LooksUpTo source source' stop less) :
    (alternation behaviours).LooksUpTo source source' stop reach := by
  induction behaviours with
  | nil => exact fun left => inStep_pure (Nat.le_refl (reach + left))
  | cons behaviour rest ih =>
    intro left
    obtain ⟨less, hless, hfirst⟩ := h behaviour (List.mem_cons_self ..)
    have hbranch : behaviour.InStep source source' stop (reach + left)
        (roomAfter (reach + left) left) :=
      hfirst.inStep (show less + (reach + left - less) = reach + left by omega) (by omega)
    refine hbranch.bind fun outcome => ?_
    cases outcome with
    | none => exact ih (fun b hb => h b (List.mem_cons_of_mem _ hb)) left
    | some found => exact inStep_pure (Nat.le_refl left)

theorem endRepetition_inStep {least start : Int} {stalled : Bool}
    (hstart : Text.Shared source source' stop reach start) (hleft : left ≤ need)
    (collected : List Match) :
    (endRepetition least start stalled collected).InStep source source' stop need
      (roomAfter reach left) := by
  unfold endRepetition
  split
  next => exact inStep_some_matchFrom hleft
  next => exact inStep_none_seek hstart

/-- Every round that is left may use up as much, and the one that fails uses up nothing. -/
theorem boundedRounds_inStep {behaviour : Behaviour} {size : Nat}
    (h : behaviour.LooksUpTo source source' stop size) {least start : Int}
    (hstart : Text.Shared source source' stop reach start) (rounds : Nat) (collected : List Match) :
    (boundedRounds behaviour least start rounds collected).InStep source source' stop
      (rounds * size + left) (roomAfter reach left) := by
  induction rounds generalizing collected with
  | zero => exact endRepetition_inStep hstart (Nat.le_add_left left _) collected
  | succ rounds ih =>
    have hneed : (rounds + 1) * size + left = size + (rounds * size + left) := by
      rw [Nat.succ_mul]
      omega
    rw [hneed]
    refine (h (rounds * size + left)).bind fun outcome => ?_
    cases outcome with
    | none => exact endRepetition_inStep hstart (by simp only [roomAfter]; omega) collected
    | some found => exact ih (found :: collected)

theorem quantifier_looksUpTo {behaviour : Behaviour}
    (h : behaviour.LooksUpTo source source' stop reach) (limit : Nat) (least most : Int) :
    (quantifier limit behaviour least (some most)).LooksUpTo source source' stop
      (most.toNat * reach) :=
  fun _ => inStep_position_bind fun _ hstart => boundedRounds_inStep h hstart most.toNat []

theorem optional_looksUpTo {behaviour : Behaviour}
    (h : behaviour.LooksUpTo source source' stop reach) :
    (optional behaviour).LooksUpTo source source' stop reach := by
  intro left
  refine inStep_position_bind fun start hstart => (h left).bind fun outcome => ?_
  exact (inStep_seek hstart).bind fun _ => inStep_some_matchFrom (Nat.le_add_left left reach)

end Behaviour

/-! ## Runs -/

namespace Matcher

theorem sumReach_eq_sum (matchers : List (Matcher κ)) :
    sumReach matchers = (matchers.map reach).sum := by
  induction matchers with
  | nil => rfl
  | cons matcher rest ih => simp [sumReach, ih]

theorem Bounded.behave_looksUpTo {matcher : Matcher κ} (h : matcher.Bounded) (grammar : Grammar κ)
    (rounds nesting : Nat) (source source' : Text) (stop : Int) :
    (matcher.behave grammar rounds nesting).LooksUpTo source source' stop matcher.reach := by
  induction nesting generalizing matcher with
  | zero => exact fun _ => Attempt.inStep_exhaust
  | succ nesting ih =>
    cases h with
    | char value => exact Behaviour.character_looksUpTo value
    | seq h =>
      rw [reach, sumReach_eq_sum]
      exact Behaviour.sequence_looksUpTo fun m hm => ih (h m hm)
    | alt h =>
      refine Behaviour.alternation_looksUpTo fun behaviour hbehaviour => ?_
      obtain ⟨m, hm, rfl⟩ := List.mem_map.1 hbehaviour
      exact ⟨m.reach, reach_le_maxReach hm, ih (h m hm)⟩
    | quant h => exact Behaviour.quantifier_looksUpTo (ih h) rounds _ _
    | opt h => exact Behaviour.optional_looksUpTo (ih h)

/-- A bounded matcher that is called inside two texts, at one offset, from which on the texts are
    the same for as many characters as it looks ahead, does the same on both: the run on the one is
    the run on the other, with its result, the cursor that it leaves, and all that it does on the
    way. And within wide limits it does give a match or nothing. -/
theorem Bounded.behaviour_eq_of_slice_eq {matcher : Matcher κ} (h : matcher.Bounded)
    (grammar : Grammar κ) (limits : Limits) {source source' : Text} {progress : Progress}
    (hrange : source.InRange progress.cursor) (hrange' : source'.InRange progress.cursor)
    (hslice : source.slice progress.cursor (progress.cursor + matcher.reach)
      = source'.slice progress.cursor (progress.cursor + matcher.reach)) :
    matcher.behaviour grammar limits source progress
      = matcher.behaviour grammar limits source' progress ∧
    (matcher.depth ≤ limits.nesting → source.length < limits.rounds →
      ∃ outcome progress',
        matcher.behaviour grammar limits source progress = (.returned outcome, progress')) := by
  let stop : Int := progress.cursor + matcher.reach
  have hshared : Text.Shared source source' stop (matcher.reach + 0) progress.cursor :=
    ⟨hrange, hrange', hslice, Int.le_refl stop⟩
  have hlooks := h.behave_looksUpTo grammar limits.rounds limits.nesting source source' stop
  exact ⟨(hlooks 0 progress hshared).1.symm, fun hnesting hrounds =>
    h.plain.exists_returned hrange hnesting hrounds⟩

/-- The first text goes on with what would be a third round. The second text ends before that, but
    as there are two rounds at most, this is further than the repetition looks. -/
theorem Bounded.behaviour_eq_of_slice_eq_full :
    let matcher : Matcher Empty :=
      .quant (.alt [.seq [.char ['a'], .char ['b']], .seq [.opt (.char ['a']), .char ['c']]])
        1 (some 2)
    let source : Text := ['x', 'a', 'b', 'c', 'a', 'b']
    let source' : Text := ['y', 'a', 'b', 'c', 'a']
    let limits : Limits := ⟨5, 7⟩
    let progress : Progress := ⟨1, []⟩
    matcher.Bounded ∧ source.InRange 1 ∧ source'.InRange 1 ∧ matcher.reach = 4 ∧
      source.slice 1 (1 + matcher.reach) = source'.slice 1 (1 + matcher.reach) ∧
      matcher.depth ≤ limits.nesting ∧ source.length < limits.rounds ∧
      matcher.behaviour .plain limits source progress
        = matcher.behaviour .plain limits source' progress ∧
      ∃ outcome progress',
        matcher.behaviour .plain limits source progress = (.returned outcome, progress') := by
  intro matcher source source' limits progress
  have hbounded : matcher.Bounded := by
    refine .quant (.alt ?_)
    simp only [List.forall_mem_cons]
    refine ⟨.seq ?_, .seq ?_, nofun⟩
    · simp only [List.forall_mem_cons]
      exact ⟨.char _, .char _, nofun⟩
    · simp only [List.forall_mem_cons]
      exact ⟨.opt (.char _), .char _, nofun⟩
  have hrange : source.InRange progress.cursor := ⟨by decide, by decide⟩
  have hrange' : source'.InRange progress.cursor := ⟨by decide, by decide⟩
  have hslice : source.slice 1 (1 + matcher.reach) = source'.slice 1 (1 + matcher.reach) := by
    decide
  have hnesting : matcher.depth ≤ limits.nesting := by decide
  have hrounds : source.length < limits.rounds := by decide
  obtain ⟨hsame, hreturns⟩ :=
    hbounded.behaviour_eq_of_slice_eq .plain limits hrange hrange' hslice
  exact ⟨hbounded, hrange, hrange', rfl, hslice, hnesting, hrounds, hsame,
    hreturns hnesting hrounds⟩

end Matcher

end CursorGrammar
