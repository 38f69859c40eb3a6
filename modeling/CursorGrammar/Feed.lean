import CursorGrammar.Fault
import CursorGrammar.Value.Printer

set_option autoImplicit false

/-! # Feeds

A feed is a text that is read from a cursor on. It is opened with the cursor inside the text. A
matcher may move the cursor anywhere, also outside; what is read there follows from how offsets
name positions. -/

namespace CursorGrammar

/-- A text, and the offset at which reading goes on. -/
structure Feed where
  source : Text
  cursor : Int
  deriving DecidableEq

namespace Feed

/-- The feed on a text with the cursor at an offset between its two ends. -/
def open? (source : Text) (cursor : Int) : Except Fault Feed :=
  if 0 ≤ cursor ∧ cursor ≤ source.length then .ok ⟨source, cursor⟩
  else .error (.cursorOutside cursor source.length)

/-- The text from the cursor on, or as much of it as the window shows. -/
def lookahead (feed : Feed) (window : Option Int) : Text :=
  match window with
  | none => feed.source.sliceFrom feed.cursor
  | some window => feed.source.slice feed.cursor (feed.cursor + window)

/-- How much of a token is compared: the length, if it is given, and otherwise all. -/
def tokenLength (token : Text) (length : Option Int) : Int :=
  length.getD token.length

/-- As many characters as are compared stand at the cursor, and they are those of the token. -/
def accepts (feed : Feed) (token : Text) (length : Option Int) : Bool :=
  let size := tokenLength token length
  let segment := feed.source.slice feed.cursor (feed.cursor + size)
  segment.length == size && segment == token.slice 0 size

/-- Moves the cursor past a token, if it stands there; otherwise nothing changes. -/
def consume (feed : Feed) (token : Text) (length : Option Int) : Bool × Feed :=
  if feed.accepts token length then
    (true, { feed with cursor := feed.cursor + tokenLength token length })
  else (false, feed)

/-- The cursor has reached the end of the text. -/
def done (feed : Feed) : Bool :=
  feed.source.length ≤ feed.cursor

/-- How far the cursor is from the end of the text. -/
def remaining (feed : Feed) : Int :=
  feed.source.length - feed.cursor

/-- The piece of the text that a span covers. -/
def text (feed : Feed) (span : Span) : Text :=
  feed.source.slice span.start span.stop

/-- The printed form of a feed. -/
def print (feed : Feed) : Text :=
  printRecord "Feed".toList
    [("source".toList, feed.source.quoted), ("cursor".toList, decimal feed.cursor)]

/-! ## Opening -/

theorem open?_eq_ok_iff {source : Text} {cursor : Int} {feed : Feed} :
    open? source cursor = .ok feed ↔
      feed = ⟨source, cursor⟩ ∧ 0 ≤ cursor ∧ cursor ≤ source.length := by
  unfold open?
  split
  next h =>
    constructor
    · rintro ⟨⟩
      exact ⟨rfl, h⟩
    · rintro ⟨rfl, -⟩
      rfl
  next h =>
    constructor
    · rintro ⟨⟩
    · rintro ⟨-, hc⟩
      exact absurd hc h

/-! ## The end of the text -/

@[simp]
theorem done_iff {source : Text} {cursor : Int} :
    done ⟨source, cursor⟩ = true ↔ source.length ≤ cursor :=
  decide_eq_true_iff

end Feed

end CursorGrammar
