import CursorGrammar.Behaviour

set_option autoImplicit false

/-! # What an attempt ensures

A postcondition says what holds when an attempt has ended, for each way in which it can end: with a
value, with a fault, or at a limit. An attempt ensures a postcondition on a text from some progress
on if its one run there ends accordingly. For every step that an attempt can be made of there is a
rule which says what the step ensures; an attempt made of steps is taken apart by `ensures_bind`. -/

namespace CursorGrammar

/-- What holds at the end of an attempt, whichever end it is. -/
structure Post (α : Type) where
  returned : α → Progress → Prop
  raised : Fault → Progress → Prop
  exhausted : Progress → Prop

namespace Post

variable {α : Type}

/-- The end of a run is as the postcondition says. -/
def Holds (post : Post α) : Ending α × Progress → Prop
  | (.returned value, progress) => post.returned value progress
  | (.raised fault, progress) => post.raised fault progress
  | (.exhausted, progress) => post.exhausted progress

/-- Says something of the values that are returned, and nothing of the other ends. -/
def ifReturned (returned : α → Progress → Prop) : Post α :=
  ⟨returned, fun _ _ => True, fun _ => True⟩

end Post

namespace Attempt

variable {α β : Type}

/-- However the attempt ends on the text from the progress on, the postcondition holds then. -/
def Ensures (attempt : Attempt α) (source : Text) (progress : Progress) (post : Post α) : Prop :=
  post.Holds (attempt source progress)

variable {source : Text} {progress : Progress} {post post' : Post α}

/-! ## Using what is ensured -/

theorem Ensures.of_returned {attempt : Attempt α} {value : α} {progress' : Progress}
    (h : attempt.Ensures source progress post)
    (hrun : attempt source progress = (.returned value, progress')) :
    post.returned value progress' := by
  unfold Ensures at h
  rw [hrun] at h
  exact h

theorem ensures_ifReturned_iff {attempt : Attempt α} {returned : α → Progress → Prop} :
    attempt.Ensures source progress (.ifReturned returned) ↔
      ∀ value progress', attempt source progress = (.returned value, progress') →
        returned value progress' := by
  constructor
  · intro h value progress' hrun
    exact h.of_returned hrun
  · intro h
    unfold Ensures
    cases hrun : attempt source progress with
    | mk ending progress' =>
      cases ending with
      | returned value => exact h value progress' hrun
      | raised fault => exact trivial
      | exhausted => exact trivial

theorem Ensures.mono {attempt : Attempt α} (h : attempt.Ensures source progress post)
    (hreturned : ∀ value progress', post.returned value progress' →
      post'.returned value progress')
    (hraised : ∀ fault progress', post.raised fault progress' → post'.raised fault progress')
    (hexhausted : ∀ progress', post.exhausted progress' → post'.exhausted progress') :
    attempt.Ensures source progress post' := by
  unfold Ensures at h ⊢
  generalize attempt source progress = run at h ⊢
  obtain ⟨ending, progress'⟩ := run
  cases ending with
  | returned value => exact hreturned value progress' h
  | raised fault => exact hraised fault progress' h
  | exhausted => exact hexhausted progress' h

/-- A run that neither raises a fault nor reaches a limit returns. -/
theorem Ensures.exists_returned {attempt : Attempt α} (h : attempt.Ensures source progress post)
    (hraised : ∀ fault progress', ¬post.raised fault progress')
    (hexhausted : ∀ progress', ¬post.exhausted progress') :
    ∃ value progress', attempt source progress = (.returned value, progress') ∧
      post.returned value progress' := by
  unfold Ensures at h
  generalize attempt source progress = run at h ⊢
  obtain ⟨ending, progress'⟩ := run
  cases ending with
  | returned value => exact ⟨value, progress', rfl, h⟩
  | raised fault => exact absurd h (hraised fault progress')
  | exhausted => exact absurd h (hexhausted progress')

/-! ## Rules for steps -/

theorem ensures_bind {attempt : Attempt α} {next : α → Attempt β} {post : Post β} :
    (attempt >>= next).Ensures source progress post ↔
      attempt.Ensures source progress
        ⟨fun value progress' => (next value).Ensures source progress' post,
          post.raised, post.exhausted⟩ := by
  show post.Holds (andThen attempt next source progress) ↔ Post.Holds _ (attempt source progress)
  unfold andThen
  obtain ⟨ending, progress'⟩ := attempt source progress
  cases ending with
  | returned value => exact Iff.rfl
  | raised fault => exact Iff.rfl
  | exhausted => exact Iff.rfl

theorem Ensures.bind {attempt : Attempt α} {next : α → Attempt β} {post' : Post β}
    (h : attempt.Ensures source progress post)
    (hreturned : ∀ value progress', post.returned value progress' →
      (next value).Ensures source progress' post')
    (hraised : ∀ fault progress', post.raised fault progress' → post'.raised fault progress')
    (hexhausted : ∀ progress', post.exhausted progress' → post'.exhausted progress') :
    (attempt >>= next).Ensures source progress post' :=
  ensures_bind.2 (h.mono hreturned hraised hexhausted)

/-- Whatever an attempt returns is followed by what ensures the postcondition there. -/
theorem ensures_bind_of_returned {attempt : Attempt α} {next : α → Attempt β}
    {returned : β → Progress → Prop}
    (h : ∀ value progress', attempt source progress = (.returned value, progress') →
      (next value).Ensures source progress' (.ifReturned returned)) :
    (attempt >>= next).Ensures source progress (.ifReturned returned) := by
  rw [ensures_bind]
  unfold Ensures
  cases hrun : attempt source progress with
  | mk ending progress' =>
    cases ending with
    | returned value => exact h value progress' hrun
    | raised fault => exact trivial
    | exhausted => exact trivial

/-- An attempt that may do anything is followed by what ensures the postcondition in any case. -/
theorem ensures_bind_of_forall {attempt : Attempt α} {next : α → Attempt β}
    {returned : β → Progress → Prop}
    (h : ∀ value progress', (next value).Ensures source progress' (.ifReturned returned)) :
    (attempt >>= next).Ensures source progress (.ifReturned returned) :=
  ensures_bind_of_returned fun value progress' _ => h value progress'

/-! A step that uses the feed, and what comes after it. -/

variable {post : Post β}

theorem ensures_position_bind {next : Int → Attempt β} :
    (position >>= next).Ensures source progress post ↔
      (next progress.cursor).Ensures source progress post :=
  Iff.rfl

theorem ensures_note_bind {event : Event} {next : Unit → Attempt β} :
    (note event >>= next).Ensures source progress post ↔
      (next ()).Ensures source
        ⟨progress.cursor, ⟨event, progress.cursor⟩ :: progress.journal⟩ post :=
  Iff.rfl

theorem ensures_seek_bind {cursor : Int} {next : Unit → Attempt β} :
    (seek cursor >>= next).Ensures source progress post ↔
      (next ()).Ensures source ⟨cursor, ⟨.seek cursor, cursor⟩ :: progress.journal⟩ post :=
  Iff.rfl

/-- Looking ahead leaves the cursor alone. -/
theorem ensures_lookahead_bind {window : Option Int} {next : Text → Attempt β}
    (h : ∀ journal, (next (Feed.lookahead ⟨source, progress.cursor⟩ window)).Ensures source
      ⟨progress.cursor, journal⟩ post) :
    (lookahead window >>= next).Ensures source progress post :=
  h _

/-- A token that is accepted takes the cursor past it, and any other leaves the cursor alone. -/
theorem ensures_consume_bind {token : Text} {length : Option Int} {next : Bool → Attempt β}
    (haccepted : Feed.accepts ⟨source, progress.cursor⟩ token length = true → ∀ journal,
      (next true).Ensures source
        ⟨progress.cursor + Feed.tokenLength token length, journal⟩ post)
    (hrejected : Feed.accepts ⟨source, progress.cursor⟩ token length = false → ∀ journal,
      (next false).Ensures source ⟨progress.cursor, journal⟩ post) :
    (consume token length >>= next).Ensures source progress post := by
  rw [ensures_bind]
  unfold Ensures consume Feed.consume
  cases haccepts : Feed.accepts ⟨source, progress.cursor⟩ token length with
  | true => exact haccepted haccepts _
  | false => exact hrejected haccepts _

/-- From an offset of the text up to the cursor there is a match, if it does not lie behind the
    cursor. -/
theorem ensures_matchFrom_bind {value : Value} {start : Int} {next : Match → Attempt β}
    (hstart : 0 ≤ start) (hstop : start ≤ progress.cursor)
    (h : (next ⟨value, ⟨start, progress.cursor, hstart, hstop⟩⟩).Ensures source progress post) :
    (matchFrom value start >>= next).Ensures source progress post := by
  have hspan : Span.ofBounds? start progress.cursor
      = some ⟨start, progress.cursor, hstart, hstop⟩ :=
    Span.ofBounds?_eq_some_iff.2 ⟨rfl, rfl⟩
  have hfrom : matchFrom value start source progress
      = (.returned ⟨value, ⟨start, progress.cursor, hstart, hstop⟩⟩, progress) := by
    show matchBetween value start progress.cursor source progress = _
    unfold matchBetween
    rw [hspan]
    rfl
  rw [ensures_bind]
  unfold Ensures
  rw [hfrom]
  exact h

/-- A match that is made reaches from `start` to the cursor, wherever they are. -/
theorem ensures_matchFrom_bind_ifReturned {value : Value} {start : Int} {next : Match → Attempt β}
    {returned : β → Progress → Prop}
    (h : ∀ span : Span, span.start = start → span.stop = progress.cursor →
      (next ⟨value, span⟩).Ensures source progress (.ifReturned returned)) :
    (matchFrom value start >>= next).Ensures source progress (.ifReturned returned) := by
  rw [ensures_bind]
  show Post.Holds _ (matchBetween value start progress.cursor source progress)
  unfold matchBetween
  cases hspan : Span.ofBounds? start progress.cursor with
  | none => exact trivial
  | some span =>
    obtain ⟨hstart, hstop⟩ := Span.ofBounds?_eq_some_iff.1 hspan
    exact h span hstart hstop

end Attempt

end CursorGrammar
