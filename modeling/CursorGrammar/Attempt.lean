import CursorGrammar.Feed

set_option autoImplicit false

/-! # Attempts

An attempt reads a text from a cursor on. It moves the cursor, and notes in a journal whatever it
does to it. It cannot change the text. However it ends, the cursor and the journal stay as they
are at that moment. -/

namespace CursorGrammar

/-! ## The journal -/

/-- One use of the feed, or the beginning or the end of a matcher under observation. -/
inductive Event where
  | lookahead (window : Option Int) (shown : Text)
  | consume (token : Text) (length : Option Int) (accepted : Bool)
  | seek (cursor : Int)
  | enter (label : Text)
  | leave (label : Text) (matched : Bool)
  deriving DecidableEq, Repr

/-- An event, with the cursor just after it. -/
structure Entry where
  event : Event
  cursor : Int
  deriving DecidableEq, Repr

/-- How far an attempt has come. -/
structure Progress where
  cursor : Int
  /-- What has happened, the latest first. -/
  journal : List Entry
  deriving DecidableEq, Repr

/-! ## Attempts and how they end -/

/-- How an attempt ends. -/
inductive Ending (α : Type) where
  | returned (value : α)
  | raised (fault : Fault)
  /-- The limit on nesting or on rounds has been reached. -/
  | exhausted

/-- A computation that reads a text from a cursor on. -/
def Attempt (α : Type) : Type :=
  Text → Progress → Ending α × Progress

namespace Attempt

variable {α β : Type}

/-- Ends at once. -/
def ofEnding (ending : Ending α) : Attempt α :=
  fun _ progress => (ending, progress)

/-- Goes on with another attempt if this one returns. -/
@[inline]
def andThen (attempt : Attempt α) (next : α → Attempt β) : Attempt β :=
  fun source progress =>
    match attempt source progress with
    | (.returned value, progress) => next value source progress
    | (.raised fault, progress) => (.raised fault, progress)
    | (.exhausted, progress) => (.exhausted, progress)

@[inline]
instance : Monad Attempt where
  pure value := fun _ progress => (.returned value, progress)
  bind := andThen

instance : LawfulMonad Attempt :=
  LawfulMonad.mk' Attempt
    (fun attempt => by
      funext source progress
      show andThen attempt _ source progress = attempt source progress
      unfold andThen
      cases attempt source progress with
      | mk ending progress => cases ending <;> rfl)
    (fun _ _ => rfl)
    (fun attempt f g => by
      funext source progress
      show andThen (andThen attempt f) g source progress
        = andThen attempt (fun value => andThen (f value) g) source progress
      unfold andThen
      cases attempt source progress with
      | mk ending progress => cases ending <;> rfl)

/-- What follows an attempt that returns. -/
theorem andThen_of_returned {attempt : Attempt α} {next : α → Attempt β} {source : Text}
    {progress progress' : Progress} {value : α}
    (h : attempt source progress = (.returned value, progress')) :
    attempt.andThen next source progress = next value source progress' := by
  unfold andThen
  rw [h]

/-- Nothing follows an attempt that is given up. -/
theorem andThen_of_exhausted {attempt : Attempt α} {next : α → Attempt β} {source : Text}
    {progress progress' : Progress} (h : attempt source progress = (.exhausted, progress')) :
    attempt.andThen next source progress = (.exhausted, progress') := by
  unfold andThen
  rw [h]

/-- Ends with a fault. -/
def raise (fault : Fault) : Attempt α :=
  ofEnding (.raised fault)

/-- Ends because a limit has been reached. -/
def exhaust : Attempt α :=
  ofEnding .exhausted

/-! ## Using the feed -/

/-- The cursor. -/
def position : Attempt Int :=
  fun _ progress => (.returned progress.cursor, progress)

/-- Adds an event to the journal. -/
def note (event : Event) : Attempt Unit :=
  fun _ progress =>
    (.returned (), { progress with journal := ⟨event, progress.cursor⟩ :: progress.journal })

/-- The text at the cursor, as far as the window shows it. -/
def lookahead (window : Option Int) : Attempt Text :=
  fun source progress =>
    let shown := Feed.lookahead ⟨source, progress.cursor⟩ window
    (.returned shown,
      { progress with journal := ⟨.lookahead window shown, progress.cursor⟩ :: progress.journal })

/-- Moves the cursor past a token, if it stands there, and tells whether it does. -/
def consume (token : Text) (length : Option Int) : Attempt Bool :=
  fun source progress =>
    let (accepted, feed) := Feed.consume ⟨source, progress.cursor⟩ token length
    (.returned accepted,
      ⟨feed.cursor, ⟨.consume token length accepted, feed.cursor⟩ :: progress.journal⟩)

/-- Puts the cursor anywhere. -/
def seek (cursor : Int) : Attempt Unit :=
  fun _ progress => (.returned (), ⟨cursor, ⟨.seek cursor, cursor⟩ :: progress.journal⟩)

/-- A match with these bounds. -/
def matchBetween (value : Value) (start stop : Int) : Attempt Match :=
  match Span.ofBounds? start stop with
  | some span => pure ⟨value, span⟩
  | none => raise (.badSpan start stop)

/-- A match from `start` to the cursor. -/
def matchFrom (value : Value) (start : Int) : Attempt Match := do
  matchBetween value start (← position)

/-! ## Running -/

/-- Runs the attempt on a feed. -/
def run (attempt : Attempt α) (feed : Feed) : Ending α × Progress :=
  attempt feed.source ⟨feed.cursor, []⟩

end Attempt

end CursorGrammar
