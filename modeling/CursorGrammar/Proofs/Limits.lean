import CursorGrammar.Proofs.Congruence
import CursorGrammar.Proofs.Contract

set_option autoImplicit false

/-! # Limits

Limits only cut runs short: a run that ends within some limits ends in the same way, with the same
progress, within all wider ones. A matcher without calls meets no limit if as many matchers can be
in progress as the tree is deep, and more rounds are allowed than the text has characters. -/

namespace CursorGrammar

namespace Attempt

variable {α β : Type}

/-- The other attempt is the same wherever this one is not given up at a limit. -/
def ExtendedBy (attempt attempt' : Attempt α) : Prop :=
  ∀ source progress, (attempt source progress).1 = .exhausted ∨
    attempt' source progress = attempt source progress

theorem ExtendedBy.refl (attempt : Attempt α) : attempt.ExtendedBy attempt :=
  fun _ _ => Or.inr rfl

theorem exhaust_extendedBy (attempt : Attempt α) : exhaust.ExtendedBy attempt :=
  fun _ _ => Or.inl rfl

theorem ExtendedBy.bind {attempt attempt' : Attempt α} {next next' : α → Attempt β}
    (h : attempt.ExtendedBy attempt') (hnext : ∀ value, (next value).ExtendedBy (next' value)) :
    (attempt >>= next).ExtendedBy (attempt' >>= next') := by
  intro source progress
  show (andThen attempt next source progress).1 = .exhausted ∨
    andThen attempt' next' source progress = andThen attempt next source progress
  unfold andThen
  rcases h source progress with hexhausted | hsame
  · left
    cases hrun : attempt source progress with
    | mk ending progress' =>
      rw [hrun] at hexhausted
      cases hexhausted
      rfl
  · rw [hsame]
    cases attempt source progress with
    | mk ending progress' =>
      cases ending with
      | returned value => exact hnext value source progress'
      | raised fault => exact Or.inr rfl
      | exhausted => exact Or.inl rfl

theorem extendedBy_congruence (start : Int) : Congruence (fun _ => ExtendedBy) start where
  pure _ := .refl _
  bind := ExtendedBy.bind
  position := .refl _
  lookahead _ := .refl _
  consume _ _ := .refl _
  seek := .refl _
  matchFrom _ := .refl _

end Attempt

namespace Behaviour

open Attempt

variable {ι : Type} {members : List ι} {inner inner' : ι → Behaviour}
variable {behaviour behaviour' : Behaviour}

theorem sequence_extendedBy (h : ∀ i ∈ members, (inner i).ExtendedBy (inner' i)) :
    (sequence (members.map inner)).ExtendedBy (sequence (members.map inner')) :=
  sequence_related extendedBy_congruence h

theorem alternation_extendedBy (h : ∀ i ∈ members, (inner i).ExtendedBy (inner' i)) :
    (alternation (members.map inner)).ExtendedBy (alternation (members.map inner')) :=
  alternation_related (extendedBy_congruence 0) h

theorem quantifier_extendedBy (h : behaviour.ExtendedBy behaviour') {limit limit' : Nat}
    (hlimit : limit ≤ limit') (least : Int) (most : Option Int) :
    (quantifier limit behaviour least most).ExtendedBy
      (quantifier limit' behaviour' least most) := by
  obtain ⟨more, rfl⟩ := Nat.exists_eq_add_of_le hlimit
  exact quantifier_related extendedBy_congruence h limit more (fun _ _ => exhaust_extendedBy _) most

theorem optional_extendedBy (h : behaviour.ExtendedBy behaviour') :
    (optional behaviour).ExtendedBy (optional behaviour') :=
  optional_related extendedBy_congruence h

theorem observed_extendedBy (h : behaviour.ExtendedBy behaviour') (label : Text) :
    (observed label behaviour).ExtendedBy (observed label behaviour') :=
  (ExtendedBy.refl (note _)).bind fun _ => h.bind fun _ => .refl _

end Behaviour

/-! ## Wider limits -/

namespace Limits

instance : LE Limits :=
  ⟨fun limits limits' => limits.nesting ≤ limits'.nesting ∧ limits.rounds ≤ limits'.rounds⟩

/-- It holds of all limits that are wide enough. -/
def Eventually (holds : Limits → Prop) : Prop :=
  ∃ enough : Limits, ∀ limits, enough ≤ limits → holds limits

variable {holds holds' : Limits → Prop}

theorem Eventually.of_forall (h : ∀ limits, holds limits) : Eventually holds :=
  ⟨⟨0, 0⟩, fun limits _ => h limits⟩

theorem Eventually.mono (h : Eventually holds) (himp : ∀ limits, holds limits → holds' limits) :
    Eventually holds' := by
  obtain ⟨enough, henough⟩ := h
  exact ⟨enough, fun limits hle => himp limits (henough limits hle)⟩

theorem Eventually.and (h : Eventually holds) (h' : Eventually holds') :
    Eventually fun limits => holds limits ∧ holds' limits := by
  obtain ⟨enough, henough⟩ := h
  obtain ⟨enough', henough'⟩ := h'
  refine ⟨⟨max enough.nesting enough'.nesting, max enough.rounds enough'.rounds⟩, ?_⟩
  rintro limits ⟨hnesting, hrounds⟩
  dsimp only at hnesting hrounds
  exact ⟨henough limits ⟨by omega, by omega⟩, henough' limits ⟨by omega, by omega⟩⟩

/-- What holds within all limits that allow for one matcher at least. -/
theorem Eventually.of_succ (h : ∀ nesting rounds, holds ⟨nesting + 1, rounds⟩) :
    Eventually holds := by
  refine ⟨⟨1, 0⟩, ?_⟩
  rintro ⟨nesting, rounds⟩ ⟨hnesting, -⟩
  obtain ⟨nesting, rfl⟩ := Nat.exists_eq_add_of_le' hnesting
  exact h nesting rounds

/-- Within wide limits the members of a compound run within wide limits. -/
theorem Eventually.of_members (h : Eventually holds)
    (himp : ∀ nesting rounds, holds ⟨nesting, rounds⟩ → holds' ⟨nesting + 1, rounds⟩) :
    Eventually holds' := by
  obtain ⟨enough, henough⟩ := h
  refine ⟨⟨enough.nesting + 1, enough.rounds⟩, ?_⟩
  rintro ⟨nesting, rounds⟩ ⟨hnesting, hrounds⟩
  obtain ⟨more, rfl⟩ := Nat.exists_eq_add_of_le' hnesting
  exact himp (more + enough.nesting) rounds (henough _ ⟨Nat.le_add_left _ _, hrounds⟩)

theorem Eventually.outer (h : Eventually holds) :
    Eventually fun limits => holds ⟨limits.nesting + 1, limits.rounds⟩ := by
  obtain ⟨enough, henough⟩ := h
  exact ⟨enough, fun limits hle => henough _ ⟨Nat.le_succ_of_le hle.1, hle.2⟩⟩

theorem eventually_le_rounds (rounds : Nat) : Eventually fun limits => rounds ≤ limits.rounds :=
  ⟨⟨0, rounds⟩, fun _ hle => hle.2⟩

/-- What holds eventually holds of some limits that are wider than given ones. -/
theorem Eventually.exists_ge (h : Eventually holds) (limits : Limits) :
    ∃ limits', limits ≤ limits' ∧ holds limits' := by
  obtain ⟨enough, henough⟩ := h
  refine ⟨⟨max limits.nesting enough.nesting, max limits.rounds enough.rounds⟩, ?_, ?_⟩
  · exact ⟨Nat.le_max_left _ _, Nat.le_max_left _ _⟩
  · exact henough _ ⟨Nat.le_max_right _ _, Nat.le_max_right _ _⟩

end Limits

namespace Matcher

variable {κ : Type} {grammar : Grammar κ} {source : Text}

theorem behave_extendedBy (matcher : Matcher κ) {rounds rounds' nesting nesting' : Nat}
    (hrounds : rounds ≤ rounds') (hnesting : nesting ≤ nesting') :
    (matcher.behave grammar rounds nesting).ExtendedBy
      (matcher.behave grammar rounds' nesting') := by
  induction nesting generalizing nesting' matcher with
  | zero => exact Attempt.exhaust_extendedBy _
  | succ nesting ih =>
    cases nesting' with
    | zero => exact absurd hnesting (Nat.not_succ_le_zero nesting)
    | succ nesting' =>
      replace ih := fun m : Matcher κ => ih m (Nat.le_of_succ_le_succ hnesting)
      cases matcher with
      | char value => exact .refl _
      | pattern p => exact .refl _
      | seq matchers => exact Behaviour.sequence_extendedBy fun m _ => ih m
      | alt matchers => exact Behaviour.alternation_extendedBy fun m _ => ih m
      | quant matcher least most =>
        exact Behaviour.quantifier_extendedBy (ih matcher) hrounds least most
      | opt matcher => exact Behaviour.optional_extendedBy (ih matcher)
      | call target =>
        unfold behave
        cases grammar target with
        | forward matcher => exact ih matcher
        | observe label matcher => exact Behaviour.observed_extendedBy (ih matcher) label
        | native behaviour => exact .refl _

/-- Within wider limits a run that has returned returns the same. -/
theorem behaviour_eq_of_le {matcher : Matcher κ} {limits limits' : Limits} (h : limits ≤ limits')
    {progress progress' : Progress} {outcome : Option Match}
    (hrun : matcher.behaviour grammar limits source progress = (.returned outcome, progress')) :
    matcher.behaviour grammar limits' source progress = (.returned outcome, progress') := by
  rcases matcher.behave_extendedBy h.2 h.1 source progress with
    hexhausted | hsame
  · have hending := congrArg Prod.fst hrun
    exact nomatch hexhausted.symm.trans hending
  · exact hsame.trans hrun

/-! ## Matchers without calls -/

/-- The matcher has no calls in it. -/
abbrev Plain (matcher : Matcher κ) : Prop :=
  matcher.CallsOnly fun _ => False

theorem depth_le_maxDepth {matcher : Matcher κ} {matchers : List (Matcher κ)}
    (h : matcher ∈ matchers) : matcher.depth ≤ maxDepth matchers := by
  induction matchers with
  | nil => cases h
  | cons first rest ih =>
    unfold maxDepth
    rcases List.mem_cons.1 h with rfl | hrest
    · exact Nat.le_max_left _ _
    · exact Nat.le_trans (ih hrest) (Nat.le_max_right _ _)

theorem maxDepth_le_iff {matchers : List (Matcher κ)} {n : Nat} :
    maxDepth matchers ≤ n ↔ ∀ m ∈ matchers, m.depth ≤ n := by
  induction matchers with
  | nil => simp [maxDepth]
  | cons first rest ih => rw [maxDepth, Nat.max_le, ih, List.forall_mem_cons]

theorem depth_pos (matcher : Matcher κ) : 0 < matcher.depth := by
  cases matcher <;> unfold depth <;> omega

theorem seq_depth_le_iff {matchers : List (Matcher κ)} {n : Nat} :
    (seq matchers).depth ≤ n ↔ 0 < n ∧ ∀ m ∈ matchers, m.depth < n := by
  rw [depth]
  cases n with
  | zero => simp
  | succ n =>
    rw [Nat.add_comm, Nat.succ_le_succ_iff, maxDepth_le_iff]
    simp only [Nat.lt_succ_iff, Nat.zero_le, true_and]

theorem depth_lt_seq {matcher : Matcher κ} {matchers : List (Matcher κ)}
    (h : matcher ∈ matchers) : matcher.depth < (seq matchers).depth :=
  (seq_depth_le_iff.1 (Nat.le_refl _)).2 matcher h

/-- If the calls in a matcher behave in ways of their own that keep the contract and always return,
    then it always returns within limits that are wide enough for the tree and the text. -/
theorem CallsOnly.behave_keeps {allowed : κ → Prop}
    (hnative : ∀ target, allowed target →
      ∃ behaviour, grammar target = .native behaviour ∧ behaviour.Keeps False source)
    {matcher : Matcher κ} (h : matcher.CallsOnly allowed) {rounds nesting : Nat}
    (hrounds : source.length < rounds) (hnesting : matcher.depth ≤ nesting) :
    (matcher.behave grammar rounds nesting).Keeps False source := by
  induction nesting generalizing matcher with
  | zero => exact absurd hnesting (Nat.not_le_of_gt matcher.depth_pos)
  | succ nesting ih =>
    cases h with
    | char value => exact Behaviour.character_keeps value
    | pattern p => exact Behaviour.pattern_keeps p
    | @seq matchers h =>
      unfold depth at hnesting
      refine Behaviour.sequence_keeps ?_
      intro behaviour hbehaviour
      obtain ⟨m, hm, rfl⟩ := List.mem_map.1 hbehaviour
      have hdepth := depth_le_maxDepth hm
      exact ih (h m hm) (by omega)
    | @alt matchers h =>
      unfold depth at hnesting
      refine Behaviour.alternation_keeps ?_
      intro behaviour hbehaviour
      obtain ⟨m, hm, rfl⟩ := List.mem_map.1 hbehaviour
      have hdepth := depth_le_maxDepth hm
      exact ih (h m hm) (by omega)
    | quant h =>
      unfold depth at hnesting
      exact Behaviour.quantifier_keeps (ih h (by omega)) (Or.inr hrounds) _ _
    | opt h =>
      unfold depth at hnesting
      exact Behaviour.optional_keeps (ih h (by omega))
    | @call target h =>
      obtain ⟨behaviour, htarget, hkeeps⟩ := hnative target h
      simp only [behave, htarget]
      exact hkeeps

/-- A matcher without calls always returns within limits that are wide enough for the tree and the
    text. -/
theorem Plain.behave_keeps {matcher : Matcher κ} (h : matcher.Plain) {rounds nesting : Nat}
    (hrounds : source.length < rounds) (hnesting : matcher.depth ≤ nesting) :
    (matcher.behave grammar rounds nesting).Keeps False source :=
  CallsOnly.behave_keeps (fun _ hfalse => hfalse.elim) h hrounds hnesting

end Matcher

end CursorGrammar
