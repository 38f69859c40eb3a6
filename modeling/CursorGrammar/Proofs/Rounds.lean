import CursorGrammar.Proofs.Contract

set_option autoImplicit false

/-! # Rounds of a repetition

Each round of a repetition is one call of its behaviour, made where the round before has left off.
Without an upper bound the rounds go on until one gives nothing or leaves the cursor where it was.
If the behaviour never goes back and never beyond the end of the text, then every round but the last
takes at least one character, so there is at most one round more than there are characters left.
What the matches of the behaviour say of themselves does not matter for that. -/

namespace CursorGrammar

/-- One call of a behaviour that has returned. -/
structure Round where
  before : Progress
  outcome : Option Match
  after : Progress

namespace Behaviour

/-- On the text, from the progress on, a repetition without an upper bound consists of these rounds:
    earlier ones, each with a match and the cursor moved, and a last one that gives nothing or
    stalls. -/
inductive RepeatsUntil (behaviour : Behaviour) (source : Text) :
    Progress → List Round → Round → Prop
  | last {before after : Progress} {outcome : Option Match}
      (hcall : behaviour source before = (.returned outcome, after))
      (hlast : outcome = none ∨ after.cursor = before.cursor) :
      RepeatsUntil behaviour source before [] ⟨before, outcome, after⟩
  | next {before after : Progress} {found : Match} {earlier : List Round} {last : Round}
      (hcall : behaviour source before = (.returned (some found), after))
      (hmoved : after.cursor ≠ before.cursor)
      (hrest : RepeatsUntil behaviour source after earlier last) :
      RepeatsUntil behaviour source before (⟨before, some found, after⟩ :: earlier) last

/-- The matches of the rounds in turn. -/
def collected (rounds : List Round) : List Match :=
  rounds.filterMap Round.outcome

variable {behaviour : Behaviour} {source : Text} {progress : Progress}
variable {earlier : List Round} {last : Round}

/-! ## The rounds are what the repetition does -/

section Steps

variable {before after : Progress} {limit : Nat} {least start : Int} {founds : List Match}

/-- A round that matches and moves the cursor is followed by the next one. -/
theorem unboundedRounds_of_moved {found : Match}
    (hcall : behaviour source before = (.returned (some found), after))
    (hmoved : after.cursor ≠ before.cursor) :
    unboundedRounds behaviour least start (limit + 1) founds source before
      = unboundedRounds behaviour least start limit (found :: founds) source after := by
  show Attempt.andThen behaviour _ source before = _
  rw [Attempt.andThen_of_returned hcall]
  show (if after.cursor = before.cursor then _ else _ : Behaviour) source after = _
  rw [if_neg hmoved]

/-- A round that gives nothing, or does not move the cursor, ends the repetition. -/
theorem unboundedRounds_of_last {outcome : Option Match}
    (hcall : behaviour source before = (.returned outcome, after))
    (hlast : outcome = none ∨ after.cursor = before.cursor) :
    unboundedRounds behaviour least start (limit + 1) founds source before
      = endRepetition least start outcome.isSome (outcome.toList ++ founds) source after := by
  show Attempt.andThen behaviour _ source before = _
  rw [Attempt.andThen_of_returned hcall]
  cases outcome with
  | none => rfl
  | some found =>
    have hstalled : after.cursor = before.cursor := hlast.resolve_left (Option.some_ne_none found)
    show (if after.cursor = before.cursor then _ else _ : Behaviour) source after = _
    rw [if_pos hstalled]
    rfl

end Steps

/-- If fewer rounds are allowed than there are, the repetition is given up. -/
theorem RepeatsUntil.exhausted (h : behaviour.RepeatsUntil source progress earlier last)
    {limit : Nat} (hlimit : limit ≤ earlier.length) (least start : Int) (founds : List Match) :
    (unboundedRounds behaviour least start limit founds source progress).1 = .exhausted := by
  induction h generalizing limit founds with
  | last _ _ =>
    cases Nat.le_zero.1 hlimit
    rfl
  | next hcall hmoved _ ih =>
    cases limit with
    | zero => rfl
    | succ limit =>
      rw [unboundedRounds_of_moved hcall hmoved]
      exact ih (Nat.le_of_succ_le_succ hlimit) _

/-- If as many rounds are allowed, the repetition comes to its end after the last of them. -/
theorem RepeatsUntil.ended (h : behaviour.RepeatsUntil source progress earlier last)
    {limit : Nat} (hlimit : earlier.length < limit) (least start : Int) (founds : List Match) :
    unboundedRounds behaviour least start limit founds source progress
      = endRepetition least start last.outcome.isSome
          ((collected (earlier ++ [last])).reverse ++ founds) source last.after := by
  obtain ⟨limit, rfl⟩ := Nat.exists_eq_succ_of_ne_zero (Nat.ne_zero_of_lt hlimit)
  induction h generalizing limit founds with
  | @last before after outcome hcall hlast =>
    rw [unboundedRounds_of_last hcall hlast]
    cases outcome <;> simp [collected]
  | @next before after found earlier last hcall hmoved _ ih =>
    rw [List.length_cons] at hlimit
    obtain ⟨limit, rfl⟩ := Nat.exists_eq_succ_of_ne_zero (n := limit) (by omega)
    rw [unboundedRounds_of_moved hcall hmoved, ih _ _ (by omega)]
    simp [collected]

/-- The last round adds its match, if it has one. -/
theorem collected_append_last (earlier : List Round) (last : Round) :
    collected (earlier ++ [last]) = collected earlier ++ last.outcome.toList := by
  unfold collected
  rw [List.filterMap_append]
  cases houtcome : last.outcome <;> simp [houtcome]

/-- Every earlier round has a match. -/
theorem RepeatsUntil.length_collected (h : behaviour.RepeatsUntil source progress earlier last) :
    (collected earlier).length = earlier.length := by
  induction h with
  | last => rfl
  | next _ _ _ ih => exact congrArg Nat.succ ih

/-- A repetition that has begun inside the text and not gone back ends with nothing just if there
    are too few rounds and it has not stalled, and otherwise with a match of all that has been
    collected, and the cursor and the journal as they are. -/
theorem ensures_endRepetition_outcome {start : Int} (hstart : 0 ≤ start)
    (hle : start ≤ progress.cursor) (least : Int) (stalled : Bool) (founds : List Match) :
    (endRepetition least start stalled founds).Ensures source progress
      ⟨fun outcome progress' => (outcome = none ↔ stalled = false ∧ (founds.length : Int) < least) ∧
          ∀ found, outcome = some found →
            found.value = .ofMatches founds.reverse ∧ progress' = progress,
        fun _ _ => False, fun _ => False⟩ := by
  unfold endRepetition
  by_cases henough : stalled = true ∨ least ≤ founds.length
  · rw [if_pos henough]
    refine Attempt.ensures_matchFrom_bind hstart hle ⟨?_, ?_⟩
    · constructor
      · nofun
      · rintro ⟨rfl, hfew⟩
        rcases henough with hstalled | henough
        · cases hstalled
        · omega
    · rintro found ⟨⟩
      exact ⟨rfl, rfl⟩
  · rw [if_neg henough, Attempt.ensures_seek_bind]
    rw [not_or, Bool.not_eq_true, Int.not_le] at henough
    exact ⟨⟨fun _ => henough, fun _ => rfl⟩, nofun⟩

/-! ## Behaviours that advance -/

/-- Inside the text the behaviour always returns. It leaves the cursor where it was if it gives
    nothing, and otherwise there or further on in the text, whatever span its match reports. -/
def Advances (source : Text) (behaviour : Behaviour) : Prop :=
  ∀ progress : Progress, source.InRange progress.cursor → ∃ outcome progress',
    behaviour source progress = (.returned outcome, progress') ∧
      (outcome = none → progress'.cursor = progress.cursor) ∧
      (outcome ≠ none → progress.cursor ≤ progress'.cursor ∧ progress'.cursor ≤ source.length)

/-- What keeps the contract and always returns advances. -/
theorem Keeps.advances (h : behaviour.Keeps False source) : behaviour.Advances source := by
  intro progress hrange
  obtain ⟨outcome, progress', hrun, hreturned⟩ := (h progress hrange).exists_returned
    (fun _ _ hraised => hraised) (fun _ hgaveUp => hgaveUp)
  refine ⟨outcome, progress', hrun, ?_, ?_⟩
  · rintro rfl
    exact hreturned
  · intro hsome
    cases outcome with
    | none => exact absurd rfl hsome
    | some found =>
      obtain ⟨-, hstop, hle, hend⟩ := hreturned
      rw [hstop] at hle hend
      exact ⟨hle, hend⟩

/-- What a call of a behaviour that advances does to the cursor. -/
theorem Advances.of_call (h : behaviour.Advances source) {before after : Progress}
    {outcome : Option Match} (hrange : source.InRange before.cursor)
    (hcall : behaviour source before = (.returned outcome, after)) :
    (outcome = none → after.cursor = before.cursor) ∧
      (outcome ≠ none → before.cursor ≤ after.cursor ∧ after.cursor ≤ source.length) := by
  obtain ⟨outcome', after', hrun, hcursor⟩ := h before hrange
  cases hcall.symm.trans hrun
  exact hcursor

/-- The rounds come to an end: every one but the last leaves fewer characters. -/
theorem Advances.exists_repeatsUntil (h : behaviour.Advances source)
    (hrange : source.InRange progress.cursor) :
    ∃ earlier last, behaviour.RepeatsUntil source progress earlier last := by
  induction hleft : (source.length - progress.cursor).toNat using Nat.strongRecOn
    generalizing progress with
  | ind left ih =>
    obtain ⟨outcome, after, hcall, -, hsome⟩ := h progress hrange
    by_cases hlast : outcome = none ∨ after.cursor = progress.cursor
    · exact ⟨[], _, .last hcall hlast⟩
    · rw [not_or] at hlast
      obtain ⟨hfound, hmoved⟩ := hlast
      obtain ⟨hle, hend⟩ := hsome hfound
      obtain ⟨found, rfl⟩ := Option.ne_none_iff_exists'.1 hfound
      have h0 := hrange.1
      obtain ⟨earlier, last, hrest⟩ :=
        ih (source.length - after.cursor).toNat (by omega) ⟨by omega, hend⟩ rfl
      exact ⟨_, last, .next hcall hmoved hrest⟩

/-- Every round but the last takes characters, and the last takes none. -/
theorem RepeatsUntil.bounds (h : behaviour.RepeatsUntil source progress earlier last)
    (hadvances : behaviour.Advances source) (hrange : source.InRange progress.cursor) :
    (earlier.length : Int) ≤ last.before.cursor - progress.cursor ∧
      (∀ round ∈ earlier, round.before.cursor < round.after.cursor) ∧
      source.InRange last.before.cursor ∧ last.after.cursor = last.before.cursor := by
  induction h with
  | last hcall hlast =>
    have hrestored := (hadvances.of_call hrange hcall).1
    exact ⟨by simp, nofun, hrange, hlast.elim hrestored id⟩
  | next hcall hmoved _ ih =>
    obtain ⟨hle, hend⟩ := (hadvances.of_call hrange hcall).2 (Option.some_ne_none _)
    obtain ⟨hlength, hforward, hlast⟩ := ih ⟨Int.le_trans hrange.1 hle, hend⟩
    refine ⟨?_, ?_, hlast⟩
    · rw [List.length_cons]
      omega
    · rw [List.forall_mem_cons]
      exact ⟨Int.lt_iff_le_and_ne.2 ⟨hle, Ne.symm hmoved⟩, hforward⟩

/-- A repetition without an upper bound of a behaviour that advances always stops. It takes at most
    one round more than there are characters left, and every round but the last takes characters.
    These rounds are all that it takes: if fewer are allowed it is given up, and otherwise it
    returns. It gives nothing just if there are too few rounds and the last has not stalled, and a
    match holds the matches of all the rounds. -/
theorem quantifier_stops (h : behaviour.Advances source)
    (hrange : source.InRange progress.cursor) (least : Int) :
    ∃ earlier last, behaviour.RepeatsUntil source progress earlier last ∧
      (earlier.length + 1 : Int) ≤ source.length - progress.cursor + 1 ∧
      (∀ round ∈ earlier, round.before.cursor < round.after.cursor) ∧
      (∀ limit ≤ earlier.length,
        (quantifier limit behaviour least none source progress).1 = .exhausted) ∧
      ∀ limit > earlier.length, ∃ outcome progress',
        quantifier limit behaviour least none source progress = (.returned outcome, progress') ∧
        (outcome = none ↔ last.outcome = none ∧ (earlier.length : Int) < least) ∧
        ∀ found, outcome = some found →
          found.value = .ofMatches (collected (earlier ++ [last])) ∧ progress' = last.after ∧
          ((collected (earlier ++ [last])).length : Int)
            ≤ source.length - progress.cursor + 1 := by
  obtain ⟨earlier, last, hrounds⟩ := h.exists_repeatsUntil hrange
  obtain ⟨hlength, hforward, ⟨-, hend⟩, hstays⟩ := hrounds.bounds h hrange
  have hcount : (collected (earlier ++ [last])).length
      = earlier.length + last.outcome.toList.length := by
    rw [collected_append_last, List.length_append, hrounds.length_collected]
  refine ⟨earlier, last, hrounds, by omega, hforward, ?_, ?_⟩
  · intro limit hlimit
    exact hrounds.exhausted hlimit least progress.cursor []
  · intro limit hlimit
    have hrun : quantifier limit behaviour least none source progress = _ :=
      hrounds.ended hlimit least progress.cursor []
    rw [List.append_nil] at hrun
    have hback : progress.cursor ≤ last.after.cursor := by omega
    obtain ⟨outcome, progress', hlast, hnone, hsome⟩ :=
      (ensures_endRepetition_outcome hrange.1 hback least last.outcome.isSome
        (collected (earlier ++ [last])).reverse).exists_returned
        (fun _ _ hraised => hraised) (fun _ hgaveUp => hgaveUp)
    rw [List.length_reverse, hcount] at hnone
    rw [List.reverse_reverse] at hsome
    refine ⟨outcome, progress', hrun.trans hlast, hnone.trans ?_, ?_⟩
    · cases last.outcome <;> simp
    · intro found hfound
      obtain ⟨hvalue, hafter⟩ := hsome found hfound
      have hatMost : last.outcome.toList.length ≤ 1 := by cases last.outcome <;> simp
      exact ⟨hvalue, hafter, by omega⟩

/-- From between the two characters on, a repetition of any character takes two rounds at most. -/
theorem quantifier_stops_any :
    let source : Text := ['a', 'b']
    let progress : Progress := ⟨1, []⟩
    let behaviour := Probe.any.behaviour
    behaviour.Advances source ∧ source.InRange progress.cursor ∧
      ∃ earlier last, behaviour.RepeatsUntil source progress earlier last ∧
        (earlier.length + 1 : Int) ≤ source.length - progress.cursor + 1 ∧
        (∀ round ∈ earlier, round.before.cursor < round.after.cursor) ∧
        (∀ limit ≤ earlier.length,
          (quantifier limit behaviour 1 none source progress).1 = .exhausted) ∧
        ∀ limit > earlier.length, ∃ outcome progress',
          quantifier limit behaviour 1 none source progress = (.returned outcome, progress') ∧
          (outcome = none ↔ last.outcome = none ∧ (earlier.length : Int) < 1) ∧
          ∀ found, outcome = some found →
            found.value = .ofMatches (collected (earlier ++ [last])) ∧ progress' = last.after ∧
            ((collected (earlier ++ [last])).length : Int)
              ≤ source.length - progress.cursor + 1 := by
  intro source progress behaviour
  have hadvances : behaviour.Advances source := (Probe.any_keeps False source).advances
  have hrange : source.InRange progress.cursor := ⟨by decide, by decide⟩
  exact ⟨hadvances, hrange, quantifier_stops hadvances hrange 1⟩

end Behaviour

end CursorGrammar
