import CursorGrammar.Parse
import CursorGrammar.Proofs.Refinement

set_option autoImplicit false

/-! # Translation

The characters before the cursor are never looked at. If they are taken away, everything that a
matcher does is the same but for its place: the run on the whole text from `k` further along is the
run on the text without its first `k` characters, with `k` added to every offset in the outcome, at
every depth, and in the journal. One equation says so, for steps, for whatever is made of steps
that translate, and hence for matchers, however their runs end. -/

namespace CursorGrammar

/-! ## Moving offsets -/

/-- The span `k` further along. -/
def Span.shift (k : Nat) (span : Span) : Span where
  start := span.start + k
  stop := span.stop + k
  start_nonneg := Int.add_nonneg span.start_nonneg (Int.natCast_nonneg k)
  start_le_stop := Int.add_le_add_right span.start_le_stop k

mutual

/-- The value with the spans in it, at every depth, `k` further along. -/
def Value.shift (k : Nat) : Value → Value
  | .text content => .text content
  | .null => .null
  | .integer number => .integer number
  | .truth value => .truth value
  | .list items => .list (Value.shiftAll k items)
  | .found value span => .found (value.shift k) (span.shift k)

/-- The values with all spans in them `k` further along. -/
def Value.shiftAll (k : Nat) : List Value → List Value
  | [] => []
  | value :: values => value.shift k :: Value.shiftAll k values

end

/-- The match `k` further along. -/
def Match.shift (k : Nat) (m : Match) : Match :=
  ⟨m.value.shift k, m.span.shift k⟩

/-- The fault `k` further along. -/
def Fault.shift (k : Nat) : Fault → Fault
  | .badSpan start stop => .badSpan (start + k) (stop + k)
  | .cursorOutside cursor length => .cursorOutside (cursor + k) (length + k)
  | .unknownRule name => .unknownRule name
  | .raised message => .raised message

/-- The event `k` further along. What is shown and what is compared has no place. -/
def Event.shift (k : Nat) : Event → Event
  | .lookahead window shown => .lookahead window shown
  | .consume token length accepted => .consume token length accepted
  | .seek cursor => .seek (cursor + k)
  | .enter label => .enter label
  | .leave label matched => .leave label matched

/-- The progress `k` further along, with everything in the journal. -/
def Progress.shift (k : Nat) (progress : Progress) : Progress where
  cursor := progress.cursor + k
  journal := progress.journal.map fun entry => ⟨entry.event.shift k, entry.cursor + k⟩

/-- The ending `k` further along, where `onValue` says what that means for values. -/
def Ending.shift {α : Type} (k : Nat) (onValue : α → α) : Ending α → Ending α
  | .returned value => .returned (onValue value)
  | .raised fault => .raised (fault.shift k)
  | .exhausted => .exhausted

section

variable {k : Nat}

theorem Value.shiftAll_eq_map (values : List Value) :
    Value.shiftAll k values = values.map (Value.shift k) := by
  induction values with
  | nil => rfl
  | cons value values ih => simp [Value.shiftAll, ih]

@[simp]
theorem Value.shift_ofMatches (ms : List Match) :
    (Value.ofMatches ms).shift k = .ofMatches (ms.map (Match.shift k)) := by
  simp only [Value.ofMatches, Value.shift, Value.shiftAll_eq_map, List.map_map]
  congr 1

@[simp]
theorem Value.shift_ofOption (outcome : Option Match) :
    (Value.ofOption outcome).shift k = .ofOption (outcome.map (Match.shift k)) := by
  cases outcome with
  | none => rfl
  | some found => rfl

/-- Bounds that are moved alike make a span just when they did before. -/
theorem Span.ofBounds?_add {start stop : Int} (hstart : 0 ≤ start) :
    Span.ofBounds? (start + k) (stop + k) = (Span.ofBounds? start stop).map (Span.shift k) := by
  cases hspan : Span.ofBounds? start stop with
  | none =>
    rw [Span.ofBounds?_eq_none_iff] at hspan
    exact Span.ofBounds?_eq_none_iff.2 (by omega)
  | some span =>
    obtain ⟨rfl, rfl⟩ := Span.ofBounds?_eq_some_iff.1 hspan
    exact Span.ofBounds?_bounds (span.shift k)

/-! ## Reading further along -/

variable {source : Text} {p : Int}

theorem Text.inRange_add (hk : k ≤ source.length) (hrange : Text.InRange (source.drop k) p) :
    source.InRange (p + k) := by
  obtain ⟨h0, hn⟩ := hrange
  rw [List.length_drop] at hn
  exact ⟨by omega, by omega⟩

/-- The rest of the text does not depend on what has been taken away before the cursor. -/
theorem Text.sliceFrom_add (hk : k ≤ source.length)
    (hrange : Text.InRange (source.drop k) p) :
    source.sliceFrom (p + k) = Text.sliceFrom (source.drop k) p := by
  obtain ⟨h0, hn⟩ := Text.inRange_add hk hrange
  unfold Text.sliceFrom
  rw [Text.position_of_mem h0 hn, Text.position_of_mem hrange.1 hrange.2, List.drop_drop]
  congr 1
  have := hrange.1
  omega

theorem Feed.accepts_add (hk : k ≤ source.length) (hrange : Text.InRange (source.drop k) p)
    (token : Text) (length : Option Int) :
    Feed.accepts ⟨source, p + k⟩ token length
      = Feed.accepts ⟨source.drop k, p⟩ token length := by
  rw [Bool.eq_iff_iff, Feed.accepts_iff (Text.inRange_add hk hrange), Feed.accepts_iff hrange,
    Text.sliceFrom_add hk hrange]

end

/-! ## Attempts that translate -/

namespace Attempt

variable {α β : Type} {source : Text} {k : Nat}

/-- Wherever the attempt is made on the text without its first `k` characters, the other one does
    the same on the whole text, `k` further along; and the cursor stays inside the text. -/
def Translates (source : Text) (k : Nat) (onValue : α → α) (attempt attempt' : Attempt α) : Prop :=
  ∀ progress : Progress, Text.InRange (source.drop k) progress.cursor →
    attempt' source (progress.shift k)
      = (attempt (source.drop k) progress).map (Ending.shift k onValue) (Progress.shift k) ∧
    Text.InRange (source.drop k) (attempt (source.drop k) progress).2.cursor

theorem Translates.bind {onValue : α → α} {onResult : β → β} {attempt attempt' : Attempt α}
    {next next' : α → Attempt β} (h : attempt.Translates source k onValue attempt')
    (hnext : ∀ value, (next value).Translates source k onResult (next' (onValue value))) :
    (attempt >>= next).Translates source k onResult (attempt' >>= next') := by
  intro progress hrange
  obtain ⟨hrun, hrange'⟩ := h progress hrange
  show andThen attempt' next' source (progress.shift k)
      = (andThen attempt next (source.drop k) progress).map _ _ ∧
    Text.InRange (source.drop k) (andThen attempt next (source.drop k) progress).2.cursor
  unfold andThen
  rw [hrun]
  generalize attempt (source.drop k) progress = run at hrange' ⊢
  obtain ⟨ending, progress'⟩ := run
  cases ending with
  | returned value => exact hnext value progress' hrange'
  | raised fault => exact ⟨rfl, hrange'⟩
  | exhausted => exact ⟨rfl, hrange'⟩

theorem translates_pure {onValue : α → α} (value : α) :
    (pure value : Attempt α).Translates source k onValue (pure (onValue value)) :=
  fun _ hrange => ⟨rfl, hrange⟩

theorem translates_exhaust {onValue : α → α} :
    (exhaust : Attempt α).Translates source k onValue exhaust :=
  fun _ hrange => ⟨rfl, hrange⟩

theorem translates_raise {onValue : α → α} (fault : Fault) :
    (raise fault : Attempt α).Translates source k onValue (raise (fault.shift k)) :=
  fun _ hrange => ⟨rfl, hrange⟩

/-- What comes after reading the cursor may rely on it being inside the text. -/
theorem translates_position_bind {onResult : β → β} {next next' : Int → Attempt β}
    (h : ∀ start, Text.InRange (source.drop k) start →
      (next start).Translates source k onResult (next' (start + k))) :
    (position >>= next).Translates source k onResult (position >>= next') :=
  fun progress hrange => h progress.cursor hrange progress hrange

theorem translates_note (event : Event) :
    (note event).Translates source k id (note (event.shift k)) :=
  fun _ hrange => ⟨rfl, hrange⟩

theorem translates_seek {cursor : Int} (hcursor : Text.InRange (source.drop k) cursor) :
    (seek cursor).Translates source k id (seek (cursor + k)) :=
  fun _ _ => ⟨rfl, hcursor⟩

theorem translates_lookahead (hk : k ≤ source.length) :
    (lookahead none).Translates source k id (lookahead none) := by
  intro progress hrange
  have hshown : Feed.lookahead ⟨source, progress.cursor + k⟩ none
      = Feed.lookahead ⟨source.drop k, progress.cursor⟩ none :=
    Text.sliceFrom_add hk hrange
  refine ⟨?_, hrange⟩
  unfold lookahead Progress.shift
  rw [hshown]
  rfl

theorem translates_consume (hk : k ≤ source.length) (token : Text) (length : Option Int) :
    (consume token length).Translates source k id (consume token length) := by
  intro progress hrange
  have haccepts := Feed.accepts_add hk hrange token length
  unfold consume Feed.consume Progress.shift
  rw [haccepts]
  cases haccepted : Feed.accepts ⟨source.drop k, progress.cursor⟩ token length with
  | true =>
    obtain ⟨hsize, hend⟩ := Feed.accepts_le_length hrange haccepted
    refine ⟨?_, ?_⟩
    · simp [Ending.shift, Event.shift, Int.add_right_comm]
    · exact ⟨Int.add_nonneg hrange.1 hsize, hend⟩
  | false => exact ⟨rfl, hrange⟩

theorem translates_matchBetween {value : Value} {start stop : Int} (hstart : 0 ≤ start) :
    (matchBetween value start stop).Translates source k (Match.shift k)
      (matchBetween (value.shift k) (start + k) (stop + k)) := by
  unfold matchBetween
  rw [Span.ofBounds?_add hstart]
  cases Span.ofBounds? start stop with
  | none => exact translates_raise _
  | some span => exact translates_pure _

theorem translates_matchFrom {value : Value} {start : Int} (hstart : 0 ≤ start) :
    (matchFrom value start).Translates source k (Match.shift k)
      (matchFrom (value.shift k) (start + k)) :=
  translates_position_bind fun _ _ => translates_matchBetween hstart

end Attempt

/-! ## Behaviours that translate -/

namespace Behaviour

open Attempt

variable {source : Text} {k : Nat}

/-- What the one behaviour does on the text without its first `k` characters, the other does on the
    whole text, `k` further along. -/
abbrev TranslatesTo (source : Text) (k : Nat) (behaviour behaviour' : Behaviour) : Prop :=
  Attempt.Translates source k (Option.map (Match.shift k)) behaviour behaviour'

/-- The behaviour does the same on the text without its first `k` characters and, `k` further
    along, on the whole text. -/
abbrev Translates (source : Text) (k : Nat) (behaviour : Behaviour) : Prop :=
  TranslatesTo source k behaviour behaviour

theorem translates_some_matchFrom {value value' : Value} {start : Int} (hstart : 0 ≤ start)
    (hvalue : value.shift k = value') :
    TranslatesTo source k
      (do return some (← matchFrom value start))
      (do return some (← matchFrom value' (start + k))) := by
  rw [← hvalue]
  exact (translates_matchFrom hstart).bind fun found => translates_pure (some found)

theorem translates_none_seek {start : Int} (hstart : Text.InRange (source.drop k) start) :
    TranslatesTo source k
      (do
        seek start
        return none)
      (do
        seek (start + k)
        return none) :=
  (translates_seek hstart).bind fun _ => translates_pure none

/-! ### Leaves -/

theorem translates_consume_token (hk : k ≤ source.length) {content token : Text}
    {length : Option Int} {start : Int} (hstart : 0 ≤ start) :
    TranslatesTo source k
      (do
        if ← consume token length then return some (← matchFrom (.text content) start)
        else return none)
      (do
        if ← consume token length then return some (← matchFrom (.text content) (start + k))
        else return none) := by
  refine (translates_consume hk token length).bind fun accepted => ?_
  cases accepted with
  | true => exact translates_some_matchFrom hstart rfl
  | false => exact translates_pure none

theorem character_translates (hk : k ≤ source.length) (value : Text) :
    (character value).Translates source k :=
  translates_position_bind fun _ hstart => translates_consume_token hk hstart.1

theorem pattern_translates (hk : k ≤ source.length) (p : Pattern) :
    (pattern p).Translates source k := by
  refine (translates_lookahead hk).bind fun shown => ?_
  simp only [id_eq]
  cases p.find shown with
  | none => exact translates_pure none
  | some found =>
    exact translates_position_bind fun _ hstart => translates_consume_token hk hstart.1

/-! ### Combinators -/

theorem sequenceFrom_translates {behaviours : List Behaviour}
    (h : ∀ b ∈ behaviours, b.Translates source k) {start : Int}
    (hstart : Text.InRange (source.drop k) start) (collected : List Match) :
    TranslatesTo source k
      (sequenceFrom start collected behaviours)
      (sequenceFrom (start + k) (collected.map (Match.shift k)) behaviours) := by
  induction behaviours generalizing collected with
  | nil => exact translates_some_matchFrom hstart.1 (by simp)
  | cons behaviour rest ih =>
    refine (h behaviour (List.mem_cons_self ..)).bind fun outcome => ?_
    cases outcome with
    | none => exact translates_none_seek hstart
    | some found => exact ih (fun b hb => h b (List.mem_cons_of_mem _ hb)) (found :: collected)

theorem sequence_translates {behaviours : List Behaviour}
    (h : ∀ b ∈ behaviours, b.Translates source k) : (sequence behaviours).Translates source k :=
  translates_position_bind fun _ hstart => sequenceFrom_translates h hstart []

theorem alternation_translates {behaviours : List Behaviour}
    (h : ∀ b ∈ behaviours, b.Translates source k) :
    (alternation behaviours).Translates source k := by
  induction behaviours with
  | nil => exact translates_pure none
  | cons behaviour rest ih =>
    refine (h behaviour (List.mem_cons_self ..)).bind fun outcome => ?_
    cases outcome with
    | none => exact ih fun b hb => h b (List.mem_cons_of_mem _ hb)
    | some found => exact translates_pure (some found)

theorem endRepetition_translates {least start : Int} {stalled : Bool}
    (hstart : Text.InRange (source.drop k) start) (collected : List Match) :
    TranslatesTo source k
      (endRepetition least start stalled collected)
      (endRepetition least (start + k) stalled (collected.map (Match.shift k))) := by
  unfold endRepetition
  rw [List.length_map]
  split
  next => exact translates_some_matchFrom hstart.1 (by simp)
  next => exact translates_none_seek hstart

theorem boundedRounds_translates {behaviour : Behaviour} (h : behaviour.Translates source k)
    {least start : Int} (hstart : Text.InRange (source.drop k) start) (rounds : Nat)
    (collected : List Match) :
    TranslatesTo source k
      (boundedRounds behaviour least start rounds collected)
      (boundedRounds behaviour least (start + k) rounds (collected.map (Match.shift k))) := by
  induction rounds generalizing collected with
  | zero => exact endRepetition_translates hstart collected
  | succ rounds ih =>
    refine h.bind fun outcome => ?_
    cases outcome with
    | none => exact endRepetition_translates hstart collected
    | some found => exact ih (found :: collected)

theorem unboundedRounds_translates {behaviour : Behaviour} (h : behaviour.Translates source k)
    {least start : Int} (hstart : Text.InRange (source.drop k) start) (rounds : Nat)
    (collected : List Match) :
    TranslatesTo source k
      (unboundedRounds behaviour least start rounds collected)
      (unboundedRounds behaviour least (start + k) rounds (collected.map (Match.shift k))) := by
  induction rounds generalizing collected with
  | zero => exact translates_exhaust
  | succ rounds ih =>
    refine translates_position_bind fun before _ => h.bind fun outcome => ?_
    cases outcome with
    | none => exact endRepetition_translates hstart collected
    | some found =>
      refine translates_position_bind fun after _ => ?_
      -- the repetition stalls on the whole text just when it stalls on the rest
      by_cases hstalled : after = before
      · rw [if_pos hstalled, if_pos (by rw [hstalled])]
        exact endRepetition_translates hstart (found :: collected)
      · rw [if_neg hstalled, if_neg (by omega)]
        exact ih (found :: collected)

theorem quantifier_translates {behaviour : Behaviour} (h : behaviour.Translates source k)
    (limit : Nat) (least : Int) (most : Option Int) :
    (quantifier limit behaviour least most).Translates source k := by
  refine translates_position_bind fun start hstart => ?_
  cases most with
  | some most => exact boundedRounds_translates h hstart most.toNat []
  | none => exact unboundedRounds_translates h hstart limit []

theorem optional_translates {behaviour : Behaviour} (h : behaviour.Translates source k) :
    (optional behaviour).Translates source k := by
  refine translates_position_bind fun start hstart => h.bind fun outcome => ?_
  refine (translates_seek hstart).bind fun _ => ?_
  exact translates_some_matchFrom hstart.1 (Value.shift_ofOption outcome)

theorem observed_translates {behaviour : Behaviour} (h : behaviour.Translates source k)
    (label : Text) : (observed label behaviour).Translates source k := by
  refine (translates_note _).bind fun _ => h.bind fun outcome => ?_
  rw [Option.isSome_map]
  exact (translates_note _).bind fun _ => translates_pure outcome

end Behaviour

/-! ## Matchers -/

/-- If every call translates that behaves in a way of its own, all matchers do. -/
theorem Matcher.behaviour_translates {κ : Type} {grammar : Grammar κ} {allowed : κ → Prop}
    {source : Text} {k : Nat} (hk : k ≤ source.length) (hclosed : grammar.ClosedUnder allowed)
    (hnative : ∀ target behaviour, allowed target → grammar target = .native behaviour →
      behaviour.Translates source k)
    {matcher : Matcher κ} (hcalls : matcher.CallsOnly allowed) (limits : Limits) :
    (matcher.behaviour grammar limits).Translates source k := by
  refine behave_induction (motive := fun _ behaviour => behaviour.Translates source k) hclosed
    ?_ ?_ ?_ ?_ ?_ ?_ ?_ ?_ ?_ hnative limits.nesting matcher hcalls
  · intro _
    exact Attempt.translates_exhaust
  · exact Behaviour.character_translates hk
  · exact Behaviour.pattern_translates hk
  · intro matchers inner h
    exact Behaviour.sequence_translates (by simpa using h)
  · intro matchers inner h
    exact Behaviour.alternation_translates (by simpa using h)
  · intro _ inner least most h
    exact Behaviour.quantifier_translates h limits.rounds least most
  · intro _ inner h
    exact Behaviour.optional_translates h
  · intro _ _ inner _ h
    exact h
  · intro _ label _ inner _ h
    exact Behaviour.observed_translates h label

namespace Matcher

variable {source : Text} {k : Nat}

/-- The whole run from `k` on, its journal included, is the run on the text without its first `k`
    characters, `k` further along. -/
theorem run_eq_shift (matcher : Matcher Empty) (limits : Limits) (hk : k ≤ source.length) :
    (matcher.behaviour .plain limits).run ⟨source, k⟩
      = ((matcher.behaviour .plain limits).run ⟨source.drop k, 0⟩).map
        (Ending.shift k (Option.map (Match.shift k))) (Progress.shift k) := by
  have htranslates : (matcher.behaviour .plain limits).Translates source k :=
    behaviour_translates hk nofun nofun matcher.plain limits
  have hbegin : (Progress.mk 0 []).shift k = ⟨k, []⟩ := by simp [Progress.shift]
  have hrun := (htranslates ⟨0, []⟩ (Text.inRange_zero _)).1
  rw [hbegin] at hrun
  exact hrun

end Matcher

end CursorGrammar
