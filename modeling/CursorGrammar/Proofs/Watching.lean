import CursorGrammar.Probe
import CursorGrammar.Proofs.Congruence

set_option autoImplicit false

/-! # Trees under observation

The journal of a run shows what is done to the cursor, but not by which matcher. It shows that as
well if every matcher of the tree is put under observation, as then each of them notes when it is
called and when it returns. That changes nothing but the journal: the run of a tree under
observation is the run of the tree itself, with these notes added, and twice as deep. -/

namespace CursorGrammar

namespace Matcher

mutual

/-- The matcher with all its members, at every depth, under observation. -/
def watchMembers (label : Matcher Empty → Text) : Matcher Empty → Matcher Callee
  | char value => char value
  | pattern p => pattern p
  | seq matchers => seq (watchAll label matchers)
  | alt matchers => alt (watchAll label matchers)
  | quant matcher least most =>
    quant (call (.observed (label matcher) (watchMembers label matcher))) least most
  | opt matcher => opt (call (.observed (label matcher) (watchMembers label matcher)))

/-- The matchers under observation, with all their members. -/
def watchAll (label : Matcher Empty → Text) : List (Matcher Empty) → List (Matcher Callee)
  | [] => []
  | matcher :: rest =>
    call (.observed (label matcher) (watchMembers label matcher)) :: watchAll label rest

end

/-- The matcher under observation, with all its members. -/
def watched (label : Matcher Empty → Text) (matcher : Matcher Empty) : Matcher Callee :=
  call (.observed (label matcher) (matcher.watchMembers label))

theorem watchAll_eq_map (label : Matcher Empty → Text) (matchers : List (Matcher Empty)) :
    watchAll label matchers = matchers.map (watched label) := by
  induction matchers with
  | nil => rfl
  | cons matcher rest ih => exact congrArg (watched label matcher :: ·) ih

end Matcher

/-! ## Leaving the notes out -/

/-- The entry is about a use of the feed, and not a note of an observer. -/
def Entry.isUse (entry : Entry) : Bool :=
  match entry.event with
  | .enter _ => false
  | .leave _ _ => false
  | _ => true

/-- The progress without the notes of observers. -/
def Progress.unwatched (progress : Progress) : Progress :=
  { progress with journal := progress.journal.filter Entry.isUse }

namespace Attempt

variable {α β : Type}

/-- Under observation the attempt is the other one: they do the same, but the other one may also
    note when something is called and when it returns. -/
def WatchedAs (attempt attempt' : Attempt α) : Prop :=
  ∀ source progress, attempt source progress.unwatched
    = ((attempt' source progress).1, (attempt' source progress).2.unwatched)

theorem WatchedAs.bind {attempt attempt' : Attempt α} {next next' : α → Attempt β}
    (h : attempt.WatchedAs attempt') (hnext : ∀ value, (next value).WatchedAs (next' value)) :
    (attempt >>= next).WatchedAs (attempt' >>= next') := by
  intro source progress
  show andThen attempt next source progress.unwatched
    = ((andThen attempt' next' source progress).1,
      (andThen attempt' next' source progress).2.unwatched)
  unfold andThen
  rw [h source progress]
  cases attempt' source progress with
  | mk ending progress' =>
    cases ending with
    | returned value => exact hnext value source progress'
    | raised fault => rfl
    | exhausted => rfl

theorem watchedAs_matchBetween (value : Value) (start stop : Int) :
    (matchBetween value start stop).WatchedAs (matchBetween value start stop) := by
  unfold matchBetween
  split
  next => exact fun _ _ => rfl
  next => exact fun _ _ => rfl

theorem watchedAs_congruence (start : Int) : Congruence (fun _ => WatchedAs) start where
  pure _ := fun _ _ => rfl
  bind := WatchedAs.bind
  position := fun _ _ => rfl
  lookahead _ := fun _ _ => rfl
  consume _ _ := fun _ _ => rfl
  seek := fun _ _ => rfl
  matchFrom value := WatchedAs.bind (fun _ _ => rfl) (watchedAs_matchBetween value start)

end Attempt

/-- The notes of an observer are left out again. -/
theorem Behaviour.observed_watchedAs {behaviour behaviour' : Behaviour}
    (h : behaviour.WatchedAs behaviour') (label : Text) :
    behaviour.WatchedAs (observed label behaviour') := by
  intro source progress
  -- without notes, the progress just after the call is the progress before it
  let entered : Progress := ⟨progress.cursor, ⟨.enter label, progress.cursor⟩ :: progress.journal⟩
  have hinner : behaviour source progress.unwatched
      = ((behaviour' source entered).1, (behaviour' source entered).2.unwatched) :=
    h source entered
  show behaviour source progress.unwatched = ((behaviour'.andThen _ source entered).1,
    (behaviour'.andThen _ source entered).2.unwatched)
  unfold Attempt.andThen
  rw [hinner]
  cases behaviour' source entered with
  | mk ending progress' =>
    cases ending with
    | returned outcome => rfl
    | raised fault => rfl
    | exhausted => rfl

/-- The run of a tree under observation is that of the tree, but for the notes in the journal. Each
    matcher is nested in its observer, so it needs to be twice as deep. -/
theorem Matcher.watched_watchedAs (label : Matcher Empty → Text)
    (rules : List (Text × Matcher Callee)) (rounds nesting : Nat) (matcher : Matcher Empty) :
    (matcher.behave .plain rounds nesting).WatchedAs
      ((matcher.watched label).behave (.ofRules rules) rounds (2 * nesting)) := by
  induction nesting generalizing matcher with
  | zero => exact fun _ _ => rfl
  | succ nesting ih =>
    refine Behaviour.observed_watchedAs ?_ (label matcher)
    show Attempt.WatchedAs _ ((matcher.watchMembers label).behave _ rounds (2 * nesting + 1))
    cases matcher with
    | char value => exact Behaviour.character_related Attempt.watchedAs_congruence value
    | pattern p => exact Behaviour.pattern_related Attempt.watchedAs_congruence p
    | seq matchers =>
      rw [watchMembers, watchAll_eq_map, behave, behave, List.map_map]
      exact Behaviour.sequence_related Attempt.watchedAs_congruence fun member _ => ih member
    | alt matchers =>
      rw [watchMembers, watchAll_eq_map, behave, behave, List.map_map]
      exact Behaviour.alternation_related (Attempt.watchedAs_congruence 0) fun member _ => ih member
    | quant member least most =>
      exact Behaviour.quantifier_related Attempt.watchedAs_congruence (ih member) rounds 0
        (fun _ _ _ _ => rfl) most
    | opt member => exact Behaviour.optional_related Attempt.watchedAs_congruence (ih member)
    | call target => exact target.elim

end CursorGrammar
