import CursorGrammar.Proofs.Reading

set_option autoImplicit false

/-! # Conservation of the text

Whoever only looks ahead and consumes, and never puts the cursor anywhere, is handed the text from
left to right: what has been taken so far and what can still be seen are, one after the other, the
text from where the feed was opened. The windows and the lengths may be any integers, and the
lengths need not be those of the tokens. -/

namespace CursorGrammar

namespace Feed

/-! ## Using a feed -/

/-- One use of a feed. The cursor goes where the feed takes it. -/
inductive Use where
  | lookahead (window : Option Int)
  | consume (token : Text) (length : Option Int)
  deriving DecidableEq, Repr

/-- The feed after the use. Looking ahead leaves it as it is. -/
def after (feed : Feed) : Use → Feed
  | .lookahead _ => feed
  | .consume token length => (feed.consume token length).2

/-- What the use takes from the text: of a token that is accepted, as much as has been compared. -/
def taken (feed : Feed) : Use → Text
  | .lookahead _ => []
  | .consume token length =>
    if (feed.consume token length).1 then token.slice 0 (tokenLength token length) else []

/-- The feed after the uses in turn. -/
def afterAll (feed : Feed) (uses : List Use) : Feed :=
  uses.foldl after feed

/-- What the uses take from the text, in turn. -/
def takenByAll (feed : Feed) : List Use → Text
  | [] => []
  | use :: uses => feed.taken use ++ (feed.after use).takenByAll uses

variable {source text : Text} {start : Int} {feed : Feed}

/-! ## What a use changes -/

/-- What is accepted stands at the cursor, and the cursor is taken past it. -/
theorem accepts_slice {token : Text} {length : Option Int}
    (h : feed.accepts token length = true) :
    token.slice 0 (tokenLength token length)
      = feed.source.slice feed.cursor (feed.cursor + tokenLength token length) := by
  unfold accepts at h
  simp only [Bool.and_eq_true, beq_iff_eq] at h
  exact h.2.symm

/-- A use that is no accepted token leaves the feed as it is and takes nothing. -/
theorem after_eq_or_accepts (feed : Feed) (use : Use) :
    (feed.after use = feed ∧ feed.taken use = []) ∨
    ∃ token length, use = .consume token length ∧ feed.accepts token length = true ∧
      feed.after use = { feed with cursor := feed.cursor + tokenLength token length } ∧
      feed.taken use = token.slice 0 (tokenLength token length) := by
  cases use with
  | lookahead window => exact Or.inl ⟨rfl, rfl⟩
  | consume token length =>
    simp only [after, taken, consume]
    by_cases haccepts : feed.accepts token length = true
    · exact Or.inr ⟨token, length, rfl, haccepts, by simp [haccepts], by simp [haccepts]⟩
    · exact Or.inl ⟨by simp [haccepts], by simp [haccepts]⟩

/-! ## What has been read -/

/-- The feed was opened on the source at `start` and has handed out the text since then. -/
structure HasRead (source : Text) (start : Int) (text : Text) (feed : Feed) : Prop where
  source_eq : feed.source = source
  start_nonneg : 0 ≤ start
  start_le : start ≤ feed.cursor
  le_length : feed.cursor ≤ source.length
  text_eq : text = source.slice start feed.cursor

theorem HasRead.inRange (h : HasRead source start text feed) : source.InRange feed.cursor :=
  ⟨Int.le_trans h.start_nonneg h.start_le, h.le_length⟩

/-- Nothing has been read yet. -/
theorem hasRead_nil (hrange : source.InRange start) : HasRead source start [] ⟨source, start⟩ :=
  ⟨rfl, hrange.1, Int.le_refl start, hrange.2, by simp⟩

/-- A use adds what it takes. -/
theorem HasRead.after (h : HasRead source start text feed) (use : Use) :
    HasRead source start (text ++ feed.taken use) (feed.after use) := by
  rcases after_eq_or_accepts feed use with
    ⟨hafter, htaken⟩ | ⟨token, length, -, haccepts, hafter, htaken⟩
  · rw [hafter, htaken, List.append_nil]
    exact h
  · obtain ⟨rfl, hstart, hle, hend, rfl⟩ := h
    have hrange : feed.source.InRange feed.cursor := ⟨Int.le_trans hstart hle, hend⟩
    obtain ⟨hsize, hstop⟩ := accepts_le_length hrange haccepts
    rw [hafter, htaken, accepts_slice haccepts]
    refine ⟨rfl, hstart, by dsimp only; omega, hstop, ?_⟩
    exact Text.slice_append_slice _ hstart hle (by omega)

/-- Uses in turn add what they take in turn. -/
theorem HasRead.afterAll (h : HasRead source start text feed) (uses : List Use) :
    HasRead source start (text ++ feed.takenByAll uses) (feed.afterAll uses) := by
  induction uses generalizing feed text with
  | nil =>
    rw [takenByAll, List.append_nil]
    exact h
  | cons use uses ih =>
    rw [takenByAll, ← List.append_assoc]
    exact ih (h.after use)

/-- What has been read and what can still be seen are the text from the start on. -/
theorem HasRead.append_lookahead (h : HasRead source start text feed) :
    text ++ feed.lookahead none = source.sliceFrom start := by
  obtain ⟨rfl, hstart, hle, hend, rfl⟩ := h
  show _ ++ feed.source.sliceFrom feed.cursor = _
  rw [Text.sliceFrom_eq_slice, Text.sliceFrom_eq_slice]
  exact Text.slice_append_slice _ hstart hle hend

/-- As many characters can be seen as remain. -/
theorem HasRead.length_lookahead (h : HasRead source start text feed) :
    ((feed.lookahead none).length : Int) = feed.remaining := by
  obtain ⟨hnonneg, hend⟩ := h.inRange
  show ((feed.source.sliceFrom feed.cursor).length : Int) = feed.source.length - feed.cursor
  rw [h.source_eq, Text.length_sliceFrom, Text.position_of_mem hnonneg hend]
  omega

/-- The end is reached when nothing more can be seen. -/
theorem HasRead.done_iff_lookahead (h : HasRead source start text feed) :
    feed.done = true ↔ feed.lookahead none = [] := by
  have hlength := h.length_lookahead
  rw [← List.length_eq_zero_iff, done_iff]
  unfold remaining at hlength
  omega

/-- A feed conserves its text. Whenever it has been opened and then used in any ways, the cursor is
    inside the text; no use takes it back, and only a token that is accepted moves it; what the
    tokens have taken is the text from the start to the cursor, and with what can still be seen it
    is all of the text from the start; as much can be seen as remains, and nothing just at the
    end. -/
theorem conserves_text (hopen : open? source start = .ok feed) (uses : List Use) :
    let now := feed.afterAll uses
    now.source = source ∧ source.InRange now.cursor ∧
    (∀ use, now.cursor ≤ (now.after use).cursor ∧ ((now.after use).cursor ≠ now.cursor →
      ∃ token length, use = .consume token length ∧ (now.consume token length).1 = true)) ∧
    feed.takenByAll uses = source.slice start now.cursor ∧
    feed.takenByAll uses ++ now.lookahead none = source.sliceFrom start ∧
    now.remaining = (now.lookahead none).length ∧
    (now.done = true ↔ now.lookahead none = []) := by
  intro now
  obtain ⟨rfl, hstart⟩ := open?_eq_ok_iff.1 hopen
  have hread : HasRead source start (takenByAll ⟨source, start⟩ uses) now :=
    (hasRead_nil hstart).afterAll uses
  refine ⟨hread.source_eq, hread.inRange, ?_, hread.text_eq, hread.append_lookahead,
    hread.length_lookahead.symm, hread.done_iff_lookahead⟩
  intro use
  refine ⟨?_, ?_⟩
  · -- from now on, nothing has been read yet
    have hrange : now.source.InRange now.cursor := by
      rw [hread.source_eq]
      exact hread.inRange
    exact ((hasRead_nil hrange).after use).start_le
  · intro hmoved
    rcases after_eq_or_accepts now use with
      ⟨hafter, -⟩ | ⟨token, length, huse, haccepts, -, -⟩
    · exact absurd (congrArg cursor hafter) hmoved
    · exact ⟨token, length, huse, by simp [consume, haccepts]⟩

/-- The second token is longer than what is compared of it; a negative length and a token that goes
    beyond the end are not accepted. -/
theorem conserves_text_odd_lengths :
    let source : Text := ['a', 'b', 'c', 'a', 'b', 'c']
    let feed : Feed := ⟨source, 1⟩
    let uses : List Use := [.lookahead (some (-9)), .consume ['b', 'c', 'x'] (some 2),
      .consume ['a', 'b'] (some (-1)), .consume ['a', 'b', 'c', 'a'] none, .consume ['a'] none]
    open? source 1 = .ok feed ∧ feed.afterAll uses = ⟨source, 4⟩ ∧
      feed.takenByAll uses ++ ['b', 'c'] = source.sliceFrom 1 := by
  intro source feed uses
  have hopen : open? source 1 = .ok feed := rfl
  have hafter : feed.afterAll uses = ⟨source, 4⟩ := by decide
  have hseen : lookahead ⟨source, 4⟩ none = ['b', 'c'] := by decide
  obtain ⟨-, -, -, -, htext, -, -⟩ := conserves_text hopen uses
  rw [hafter, hseen] at htext
  exact ⟨hopen, hafter, htext⟩

end Feed

end CursorGrammar
