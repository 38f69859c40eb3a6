import CursorGrammar.Behaviour

set_option autoImplicit false

/-! # Parsing a text

A behaviour can be run on any feed. Mostly it is run on a text, from an offset or from the
beginning. -/

namespace CursorGrammar

namespace Behaviour

/-- Runs the behaviour once on the text, from the offset `start` on. What it matches need not
    reach to the end of the text. -/
def parse (behaviour : Behaviour) (source : Text) (start : Int) : Ending (Option Match) :=
  match Feed.open? source start with
  | .error fault => .raised fault
  | .ok feed => (behaviour.run feed).1

/-- Runs the behaviour once on the text, and takes its match only if the cursor has then reached
    the end. -/
def parseAll (behaviour : Behaviour) (source : Text) : Ending (Option Match) :=
  match behaviour.run ⟨source, 0⟩ with
  | (.returned outcome, progress) =>
    .returned (if Feed.done ⟨source, progress.cursor⟩ then outcome else none)
  | (ending, _) => ending

/-! ## Parsing is running on a feed -/

variable {behaviour : Behaviour} {source : Text} {outcome : Option Match}

theorem parse_of_mem {start : Int} (h : 0 ≤ start ∧ start ≤ source.length) :
    behaviour.parse source start = (behaviour.run ⟨source, start⟩).1 := by
  unfold parse
  rw [Feed.open?_eq_ok_iff.2 ⟨rfl, h⟩]

/-- Parsing a whole text gives what the run gives if that has reached the end, and otherwise
    nothing. -/
theorem parseAll_eq_returned_iff :
    behaviour.parseAll source = .returned outcome ↔
      ∃ parsed progress, behaviour.run ⟨source, 0⟩ = (.returned parsed, progress) ∧
        outcome = if Feed.done ⟨source, progress.cursor⟩ then parsed else none := by
  unfold parseAll
  rcases behaviour.run ⟨source, 0⟩ with ⟨parsed | fault | _, progress⟩
  · constructor
    · rintro ⟨⟩
      exact ⟨parsed, progress, rfl, rfl⟩
    · rintro ⟨_, _, ⟨⟩, rfl⟩
      rfl
  · simp
  · simp

end Behaviour

end CursorGrammar
