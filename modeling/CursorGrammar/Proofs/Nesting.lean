import CursorGrammar.Proofs.Limits
import CursorGrammar.Proofs.Rewinding

set_option autoImplicit false

/-! # Nesting

A matcher is in progress from when it is called until it returns, and meanwhile it calls its members.
How many matchers are in progress at once, one inside the other, is never more than the depth of the
tree, whatever loops a run goes through and wherever it breaks off. So a limit on nesting that is as
wide as the tree is deep is never met. If the tree has no calls, then its depth is just where some
leaf of it lies, or some compound without members.

The calls of a tree may do anything but call matchers in turn, of which the tree would not know. -/

namespace CursorGrammar

open Journal

variable {κ : Type}

/-! ## Calls that call no matcher -/

/-- The attempt calls no matcher: all that it adds to the journal is uses of the feed, and it takes
    no notice of what observers have noted there. -/
structure Attempt.CallsNone {α : Type} (attempt : Attempt α) : Prop where
  watchedAs : attempt.WatchedAs attempt
  addsUses : ∀ source progress, ∃ uses : List Entry, (∀ entry ∈ uses, entry.isUse = true) ∧
    (attempt source progress).2.journal = uses ++ progress.journal

/-- The grammar in which every call behaves in a way of its own. -/
def Grammar.ofNatives (natives : κ → Behaviour) : Grammar κ :=
  fun target => .native (natives target)

namespace Attempt

variable {α β : Type}

theorem CallsNone.bind {attempt : Attempt α} {next : α → Attempt β} (h : attempt.CallsNone)
    (hnext : ∀ value, (next value).CallsNone) : (attempt >>= next).CallsNone where
  watchedAs := h.watchedAs.bind fun value => (hnext value).watchedAs
  addsUses source progress := by
    obtain ⟨uses, huses, hjournal⟩ := h.addsUses source progress
    show ∃ uses, _ ∧ (andThen attempt next source progress).2.journal = _
    unfold andThen
    generalize attempt source progress = run at hjournal ⊢
    obtain ⟨ending, progress'⟩ := run
    cases ending with
    | returned value =>
      obtain ⟨others, hothers, hjournal'⟩ := (hnext value).addsUses source progress'
      refine ⟨others ++ uses, List.forall_mem_append.2 ⟨hothers, huses⟩, ?_⟩
      rw [hjournal', hjournal, List.append_assoc]
    | raised fault => exact ⟨uses, huses, hjournal⟩
    | exhausted => exact ⟨uses, huses, hjournal⟩

theorem callsNone_pure (value : α) : (pure value : Attempt α).CallsNone :=
  ⟨fun _ _ => rfl, fun _ _ => ⟨[], nofun, rfl⟩⟩

theorem callsNone_raise (fault : Fault) : (raise fault : Attempt α).CallsNone :=
  ⟨fun _ _ => rfl, fun _ _ => ⟨[], nofun, rfl⟩⟩

theorem callsNone_position : position.CallsNone :=
  ⟨fun _ _ => rfl, fun _ _ => ⟨[], nofun, rfl⟩⟩

theorem callsNone_lookahead (window : Option Int) : (lookahead window).CallsNone :=
  ⟨fun _ _ => rfl, fun _ _ => ⟨[_], List.forall_mem_singleton.2 rfl, rfl⟩⟩

theorem callsNone_consume (token : Text) (length : Option Int) : (consume token length).CallsNone :=
  ⟨fun _ _ => rfl, fun _ _ => ⟨[_], List.forall_mem_singleton.2 rfl, rfl⟩⟩

theorem callsNone_seek (cursor : Int) : (seek cursor).CallsNone :=
  ⟨fun _ _ => rfl, fun _ _ => ⟨[_], List.forall_mem_singleton.2 rfl, rfl⟩⟩

theorem callsNone_matchBetween (value : Value) (start stop : Int) :
    (matchBetween value start stop).CallsNone := by
  unfold matchBetween
  split
  next => exact callsNone_pure _
  next => exact callsNone_raise _

theorem callsNone_matchFrom (value : Value) (start : Int) : (matchFrom value start).CallsNone :=
  callsNone_position.bind fun stop => callsNone_matchBetween value start stop

end Attempt

theorem Probe.behaviour_callsNone (probe : Probe) : probe.behaviour.CallsNone := by
  have hmatch : ∀ (value : Value) (start : Int),
      Attempt.CallsNone (do return some (← Attempt.matchFrom value start)) := fun value start =>
    (Attempt.callsNone_matchFrom value start).bind fun found => Attempt.callsNone_pure (some found)
  cases probe with
  | fail => exact Attempt.callsNone_pure none
  | leaky =>
    refine (Attempt.callsNone_lookahead _).bind fun shown => ?_
    exact (Attempt.callsNone_consume shown none).bind fun _ => Attempt.callsNone_pure none
  | any =>
    refine Attempt.callsNone_position.bind fun start => ?_
    refine (Attempt.callsNone_lookahead _).bind fun shown => ?_
    split
    next => exact Attempt.callsNone_pure none
    next =>
      refine (Attempt.callsNone_consume shown none).bind fun accepted => ?_
      split
      next => exact hmatch _ start
      next => exact Attempt.callsNone_pure none
  | rest =>
    refine Attempt.callsNone_position.bind fun start => ?_
    refine (Attempt.callsNone_lookahead _).bind fun shown => ?_
    exact (Attempt.callsNone_consume shown none).bind fun _ => hmatch _ start
  | zero => exact Attempt.callsNone_position.bind fun start => hmatch _ start
  | rewind =>
    refine (Attempt.callsNone_seek 0).bind fun _ => ?_
    exact (Attempt.callsNone_matchBetween _ 0 0).bind fun found =>
      Attempt.callsNone_pure (some found)
  | goto cursor succeeds =>
    refine Attempt.callsNone_position.bind fun start => ?_
    refine (Attempt.callsNone_seek cursor).bind fun _ => ?_
    split
    next => exact hmatch _ start
    next => exact Attempt.callsNone_pure none
  | claim start stop =>
    exact (Attempt.callsNone_matchBetween _ start stop).bind fun found =>
      Attempt.callsNone_pure (some found)
  | boom =>
    refine (Attempt.callsNone_lookahead _).bind fun shown => ?_
    exact (Attempt.callsNone_consume shown none).bind fun _ => Attempt.callsNone_raise _

/-! ## A tree under observation, calls included -/

/-- The grammar in which every matcher can be called, by itself, and is then under observation. Its
    members are called in this way, too, and a call behaves as `natives` tells. -/
def Grammar.watching (label : Matcher κ → Text) (natives : κ → Behaviour) : Grammar (Matcher κ) :=
  fun matcher =>
    match matcher with
    | .char value => .observe (label matcher) (.char value)
    | .pattern p => .observe (label matcher) (.pattern p)
    | .seq matchers => .observe (label matcher) (.seq (matchers.map .call))
    | .alt matchers => .observe (label matcher) (.alt (matchers.map .call))
    | .quant inner least most => .observe (label matcher) (.quant (.call inner) least most)
    | .opt inner => .observe (label matcher) (.opt (.call inner))
    | .call target => .native (Behaviour.observed (label matcher) (natives target))

/-- The run of the tree on the feed with all matchers in it under observation. Each is nested in its
    observer, so there are to be twice as many. -/
def Matcher.watchedRun (matcher : Matcher κ) (label : Matcher κ → Text) (natives : κ → Behaviour)
    (limits : Limits) (feed : Feed) : Ending (Option Match) × Progress :=
  ((call matcher).behaviour (.watching label natives) ⟨2 * limits.nesting, limits.rounds⟩).run feed

variable {natives : κ → Behaviour}

/-- The run of a tree under observation is that of the tree, but for the notes in the journal. -/
theorem Matcher.call_watchedAs (hnatives : ∀ target, (natives target).CallsNone)
    (label : Matcher κ → Text) (rounds nesting : Nat) (matcher : Matcher κ) :
    (matcher.behave (.ofNatives natives) rounds nesting).WatchedAs
      ((call matcher).behave (.watching label natives) rounds (2 * nesting)) := by
  induction nesting generalizing matcher with
  | zero => exact fun _ _ => rfl
  | succ nesting ih =>
    cases matcher with
    | char value =>
      exact Behaviour.observed_watchedAs
        (Behaviour.character_related Attempt.watchedAs_congruence value) _
    | pattern p =>
      exact Behaviour.observed_watchedAs
        (Behaviour.pattern_related Attempt.watchedAs_congruence p) _
    | seq matchers =>
      refine Behaviour.observed_watchedAs ?_ _
      rw [behave, behave, List.map_map]
      exact Behaviour.sequence_related Attempt.watchedAs_congruence fun member _ => ih member
    | alt matchers =>
      refine Behaviour.observed_watchedAs ?_ _
      rw [behave, behave, List.map_map]
      exact Behaviour.alternation_related (Attempt.watchedAs_congruence 0) fun member _ => ih member
    | quant member least most =>
      exact Behaviour.observed_watchedAs (Behaviour.quantifier_related Attempt.watchedAs_congruence
        (ih member) rounds 0 (fun _ _ _ _ => rfl) most) _
    | opt member =>
      exact Behaviour.observed_watchedAs
        (Behaviour.optional_related Attempt.watchedAs_congruence (ih member)) _
    | call target => exact Behaviour.observed_watchedAs (hnatives target).watchedAs _

/-! ## How many calls are open -/

namespace Journal

/-- At no moment have more than `most` calls been open. -/
def OpensAtMost (most : Nat) (journal : List Entry) : Prop :=
  ∀ moment, moment <:+ journal → (openCalls moment).length ≤ most

theorem OpensAtMost.cons {most : Nat} {journal : List Entry} {entry : Entry}
    (h : OpensAtMost most journal) (hopen : (openCalls (entry :: journal)).length ≤ most) :
    OpensAtMost most (entry :: journal) := by
  intro moment hsuffix
  rcases List.suffix_cons_iff.1 hsuffix with rfl | hearlier
  · exact hopen
  · exact h moment hearlier

/-- Using the feed opens no call and closes none. -/
theorem openCalls_cons_of_isUse {entry : Entry} (h : entry.isUse = true) (earlier : List Entry) :
    openCalls (entry :: earlier) = openCalls earlier := by
  obtain ⟨event, cursor⟩ := entry
  cases event with
  | enter label => cases h
  | leave label matched => cases h
  | lookahead window shown => rfl
  | consume token length accepted => rfl
  | seek target => rfl

end Journal

/-- Just now `count` calls are open, and there have never been more than `most`. -/
structure Progress.Nested (most count : Nat) (progress : Progress) : Prop where
  length_openCalls : (openCalls progress.journal).length = count
  opensAtMost : OpensAtMost most progress.journal

namespace Progress.Nested

variable {most count : Nat} {progress : Progress} {entry : Entry}

theorem count_le (h : progress.Nested most count) : count ≤ most :=
  h.length_openCalls ▸ h.opensAtMost progress.journal List.suffix_rfl

theorem use (h : progress.Nested most count) (huse : entry.isUse = true) (cursor : Int) :
    Progress.Nested most count ⟨cursor, entry :: progress.journal⟩ := by
  have hopen : (openCalls (entry :: progress.journal)).length = count := by
    rw [openCalls_cons_of_isUse huse, h.length_openCalls]
  exact ⟨hopen, h.opensAtMost.cons (hopen ▸ h.count_le)⟩

theorem uses (h : progress.Nested most count) {uses : List Entry}
    (huses : ∀ entry ∈ uses, entry.isUse = true) (cursor : Int) :
    Progress.Nested most count ⟨cursor, uses ++ progress.journal⟩ := by
  induction uses with
  | nil => exact ⟨h.length_openCalls, h.opensAtMost⟩
  | cons entry rest ih =>
    rw [List.forall_mem_cons] at huses
    exact (ih huses.2).use huses.1 cursor

theorem enter (h : progress.Nested most count) (hroom : count < most) (label : Text) (cursor : Int) :
    Progress.Nested most (count + 1) ⟨cursor, ⟨.enter label, cursor⟩ :: progress.journal⟩ := by
  have hopen : (openCalls (⟨.enter label, cursor⟩ :: progress.journal)).length = count + 1 :=
    congrArg (· + 1) h.length_openCalls
  exact ⟨hopen, h.opensAtMost.cons (hopen ▸ hroom)⟩

theorem leave (h : progress.Nested most (count + 1)) (label : Text) (matched : Bool)
    (cursor : Int) :
    Progress.Nested most count ⟨cursor, ⟨.leave label matched, cursor⟩ :: progress.journal⟩ := by
  have hopen : (openCalls (⟨.leave label matched, cursor⟩ :: progress.journal)).length = count := by
    rw [openCalls, List.length_tail, h.length_openCalls, Nat.add_sub_cancel]
  exact ⟨hopen, h.opensAtMost.cons (hopen ▸ Nat.le_of_succ_le h.count_le)⟩

end Progress.Nested

/-- At the end as many calls are open as at the beginning, unless the run breaks off, and in no case
    have there been more than `most`. -/
def Post.nested {α : Type} (most count : Nat) : Post α where
  returned _ progress := progress.Nested most count
  raised _ progress := OpensAtMost most progress.journal
  exhausted progress := OpensAtMost most progress.journal

/-- Run with `count` calls open, the attempt closes all further calls before it returns, and never
    has more than `most` of them open. -/
def Attempt.NestsWithin {α : Type} (most count : Nat) (attempt : Attempt α) : Prop :=
  ∀ source progress, progress.Nested most count →
    attempt.Ensures source progress (.nested most count)

namespace Attempt

variable {α β : Type} {most count : Nat}

theorem NestsWithin.bind {attempt : Attempt α} {next : α → Attempt β}
    (h : attempt.NestsWithin most count) (hnext : ∀ value, (next value).NestsWithin most count) :
    (attempt >>= next).NestsWithin most count := fun source progress hnested =>
  (h source progress hnested).bind (fun value progress' hreturned =>
    hnext value source progress' hreturned) (fun _ _ hraised => hraised) (fun _ hcut => hcut)

theorem nestsWithin_exhaust : (exhaust : Attempt α).NestsWithin most count :=
  fun _ _ hnested => hnested.opensAtMost

theorem CallsNone.nestsWithin {attempt : Attempt α} (h : attempt.CallsNone) :
    attempt.NestsWithin most count := by
  intro source progress hnested
  obtain ⟨uses, huses, hjournal⟩ := h.addsUses source progress
  have hafter := fun cursor => hnested.uses huses cursor
  rw [← hjournal] at hafter
  unfold Ensures
  generalize attempt source progress = run at hafter ⊢
  obtain ⟨ending, progress'⟩ := run
  cases ending with
  | returned value => exact hafter progress'.cursor
  | raised fault => exact (hafter progress'.cursor).opensAtMost
  | exhausted => exact (hafter progress'.cursor).opensAtMost

/-- The steps of matchers call no matcher. -/
theorem nestsWithin_congruence (most count : Nat) (start : Int) :
    Congruence (fun _ attempt _ => attempt.NestsWithin most count) start where
  pure value := (callsNone_pure value).nestsWithin
  bind := NestsWithin.bind
  position := callsNone_position.nestsWithin
  lookahead window := (callsNone_lookahead window).nestsWithin
  consume token length := (callsNone_consume token length).nestsWithin
  seek := (callsNone_seek start).nestsWithin
  matchFrom value := (callsNone_matchFrom value start).nestsWithin

end Attempt

/-- A call that is noted is open until it returns. -/
theorem Behaviour.observed_nestsWithin {behaviour : Behaviour} {most count : Nat}
    (hroom : count < most) (h : behaviour.NestsWithin most (count + 1)) (label : Text) :
    (observed label behaviour).NestsWithin most count := by
  intro source progress hnested
  unfold observed
  rw [Attempt.ensures_note_bind]
  refine (h source _ (hnested.enter hroom label progress.cursor)).bind ?_
    (fun _ _ hraised => hraised) (fun _ hcut => hcut)
  intro outcome progress' hreturned
  rw [Attempt.ensures_note_bind]
  exact hreturned.leave label outcome.isSome progress'.cursor

namespace Matcher

theorem alt_depth_le_iff {matchers : List (Matcher κ)} {n : Nat} :
    (alt matchers).depth ≤ n ↔ 0 < n ∧ ∀ m ∈ matchers, m.depth < n :=
  seq_depth_le_iff

/-- Called with `count` calls open, a matcher under observation never makes there be more than as
    many further ones as the tree is deep. -/
theorem call_nestsWithin (hnatives : ∀ target, (natives target).CallsNone)
    (label : Matcher κ → Text) (rounds nesting : Nat) {matcher : Matcher κ} {most count : Nat}
    (hdepth : count + matcher.depth ≤ most) :
    ((call matcher).behave (.watching label natives) rounds (2 * nesting)).NestsWithin most
      count := by
  induction nesting generalizing matcher count with
  | zero => exact Attempt.nestsWithin_exhaust
  | succ nesting ih =>
    have hroom : count < most := by
      have := matcher.depth_pos
      omega
    have hcongr := Attempt.nestsWithin_congruence most (count + 1)
    cases matcher with
    | char value =>
      exact Behaviour.observed_nestsWithin hroom (Behaviour.character_related hcongr value) _
    | pattern p =>
      exact Behaviour.observed_nestsWithin hroom (Behaviour.pattern_related hcongr p) _
    | seq matchers =>
      refine Behaviour.observed_nestsWithin hroom ?_ _
      rw [behave, List.map_map]
      rw [depth] at hdepth
      refine Behaviour.sequence_of_congruence hcongr fun member hmember => ih ?_
      have := depth_le_maxDepth hmember
      omega
    | alt matchers =>
      refine Behaviour.observed_nestsWithin hroom ?_ _
      rw [behave, List.map_map]
      rw [depth] at hdepth
      refine Behaviour.alternation_of_congruence (hcongr 0) fun member hmember => ih ?_
      have := depth_le_maxDepth hmember
      omega
    | quant member least most' =>
      rw [depth] at hdepth
      have hmember := ih (show count + 1 + member.depth ≤ most by omega)
      exact Behaviour.observed_nestsWithin hroom (Behaviour.quantifier_of_congruence hcongr hmember
        Attempt.nestsWithin_exhaust rounds least most') _
    | opt member =>
      rw [depth] at hdepth
      have hmember := ih (show count + 1 + member.depth ≤ most by omega)
      exact Behaviour.observed_nestsWithin hroom (Behaviour.optional_of_congruence hcongr hmember) _
    | call target =>
      exact Behaviour.observed_nestsWithin hroom (hnatives target).nestsWithin _

/-! ## Limits on nesting -/

/-- No limit on nesting is met that is as wide as the tree is deep. -/
theorem behave_eq_of_depth_le {matcher : Matcher κ} {rounds nesting nesting' : Nat}
    (h : matcher.depth ≤ nesting) (h' : matcher.depth ≤ nesting') :
    matcher.behave (.ofNatives natives) rounds nesting
      = matcher.behave (.ofNatives natives) rounds nesting' := by
  induction nesting generalizing nesting' matcher with
  | zero => exact absurd h (Nat.not_le_of_gt matcher.depth_pos)
  | succ nesting ih =>
    cases nesting' with
    | zero => exact absurd h' (Nat.not_le_of_gt matcher.depth_pos)
    | succ nesting' =>
      cases matcher with
      | char value => rfl
      | pattern p => rfl
      | seq matchers =>
        rw [seq_depth_le_iff] at h h'
        rw [behave, behave]
        exact congrArg Behaviour.sequence (List.map_congr_left fun m hm =>
          ih (Nat.le_of_lt_succ (h.2 m hm)) (Nat.le_of_lt_succ (h'.2 m hm)))
      | alt matchers =>
        rw [alt_depth_le_iff] at h h'
        rw [behave, behave]
        exact congrArg Behaviour.alternation (List.map_congr_left fun m hm =>
          ih (Nat.le_of_lt_succ (h.2 m hm)) (Nat.le_of_lt_succ (h'.2 m hm)))
      | quant inner least most =>
        rw [depth] at h h'
        have hinner : inner.behave (.ofNatives natives) rounds nesting
            = inner.behave (.ofNatives natives) rounds nesting' := ih (by omega) (by omega)
        rw [behave, behave, hinner]
      | opt inner =>
        rw [depth] at h h'
        have hinner : inner.behave (.ofNatives natives) rounds nesting
            = inner.behave (.ofNatives natives) rounds nesting' := ih (by omega) (by omega)
        rw [behave, behave, hinner]
      | call target => rfl

/-! ## What lies deepest -/

/-- The matcher lies in the tree so many matchers deep: the tree itself is one deep, and a member is
    one deeper than what it is a member of. -/
inductive LiesAt (inner : Matcher κ) : Matcher κ → Nat → Prop
  | root : LiesAt inner inner 1
  | seq {matcher : Matcher κ} {matchers : List (Matcher κ)} {n : Nat} (hm : matcher ∈ matchers)
      (h : LiesAt inner matcher n) : LiesAt inner (.seq matchers) (1 + n)
  | alt {matcher : Matcher κ} {matchers : List (Matcher κ)} {n : Nat} (hm : matcher ∈ matchers)
      (h : LiesAt inner matcher n) : LiesAt inner (.alt matchers) (1 + n)
  | quant {matcher : Matcher κ} {least : Int} {most : Option Int} {n : Nat}
      (h : LiesAt inner matcher n) : LiesAt inner (.quant matcher least most) (1 + n)
  | opt {matcher : Matcher κ} {n : Nat} (h : LiesAt inner matcher n) :
      LiesAt inner (.opt matcher) (1 + n)

/-- A leaf that reads the text, or a compound without members. -/
inductive IsTip : Matcher κ → Prop
  | char (value : Text) : IsTip (.char value)
  | pattern (p : Pattern) : IsTip (.pattern p)
  | seq : IsTip (.seq [])
  | alt : IsTip (.alt [])

theorem exists_mem_depth_eq {matchers : List (Matcher κ)} (h : matchers ≠ []) :
    ∃ m ∈ matchers, m.depth = maxDepth matchers := by
  induction matchers with
  | nil => exact absurd rfl h
  | cons first rest ih =>
    rw [maxDepth]
    by_cases hfirst : maxDepth rest ≤ first.depth
    · exact ⟨first, List.mem_cons_self .., (Nat.max_eq_left hfirst).symm⟩
    · have hrest : rest ≠ [] := by
        rintro rfl
        exact hfirst (Nat.zero_le _)
      obtain ⟨m, hm, hdepth⟩ := ih hrest
      refine ⟨m, List.mem_cons_of_mem _ hm, ?_⟩
      rw [hdepth, Nat.max_eq_right (Nat.le_of_not_le hfirst)]

theorem exists_tip_of_members {matchers : List (Matcher κ)} (hne : matchers ≠ [])
    (h : ∀ m ∈ matchers, ∃ tip : Matcher κ, tip.IsTip ∧ tip.LiesAt m m.depth) :
    ∃ m ∈ matchers, ∃ tip : Matcher κ, tip.IsTip ∧ tip.LiesAt m (maxDepth matchers) := by
  obtain ⟨m, hm, hdepth⟩ := exists_mem_depth_eq hne
  exact ⟨m, hm, hdepth ▸ h m hm⟩

/-- In a tree without calls, a leaf or a compound without members lies as deep as the tree is. -/
theorem Plain.exists_tip {matcher : Matcher κ} (h : matcher.Plain) :
    ∃ tip : Matcher κ, tip.IsTip ∧ tip.LiesAt matcher matcher.depth := by
  induction h with
  | char value => exact ⟨_, .char value, .root⟩
  | pattern p => exact ⟨_, .pattern p, .root⟩
  | @seq matchers _ ih =>
    by_cases hnil : matchers = []
    · subst hnil
      exact ⟨_, .seq, .root⟩
    · obtain ⟨m, hm, tip, htip, hlies⟩ := exists_tip_of_members hnil ih
      exact ⟨tip, htip, .seq hm hlies⟩
  | @alt matchers _ ih =>
    by_cases hnil : matchers = []
    · subst hnil
      exact ⟨_, .alt, .root⟩
    · obtain ⟨m, hm, tip, htip, hlies⟩ := exists_tip_of_members hnil ih
      exact ⟨tip, htip, .alt hm hlies⟩
  | quant _ ih =>
    obtain ⟨tip, htip, hlies⟩ := ih
    rw [depth]
    exact ⟨tip, htip, .quant hlies⟩
  | opt _ ih =>
    obtain ⟨tip, htip, hlies⟩ := ih
    rw [depth]
    exact ⟨tip, htip, .opt hlies⟩
  | call hfalse => exact hfalse.elim

/-- Take a tree whose calls call no matcher. Its run under observation is its run with the notes of
    the observers added, and at every moment of it, however it ends, no more matchers have been
    called that have not returned than the tree is deep. So limits on nesting are not met from there
    on: the tree does the same within all of them, and if its calls keep the contract and always
    return, then it returns, too. And if it has no calls, then a leaf of it, or a compound without
    members, lies exactly that deep. -/
theorem openCalls_le_depth (hnatives : ∀ target, (natives target).CallsNone)
    (label : Matcher κ → Text) (matcher : Matcher κ) (limits : Limits) (source : Text)
    (start : Int) :
    let run := (matcher.behaviour (.ofNatives natives) limits).run ⟨source, start⟩
    let watched := matcher.watchedRun label natives limits ⟨source, start⟩
    run = (watched.1, watched.2.unwatched) ∧
    (∀ moment, moment <:+ watched.2.journal → (openCalls moment).length ≤ matcher.depth) ∧
    (matcher.depth ≤ limits.nesting →
      run = (matcher.behaviour (.ofNatives natives) ⟨matcher.depth, limits.rounds⟩).run
        ⟨source, start⟩ ∧
      ((∀ target, (natives target).Keeps False source) → source.InRange start →
        source.length < limits.rounds → ∃ outcome progress, run = (.returned outcome, progress))) ∧
    (matcher.Plain → ∃ tip : Matcher κ, tip.IsTip ∧ tip.LiesAt matcher matcher.depth) := by
  intro run watched
  refine ⟨call_watchedAs hnatives label limits.rounds limits.nesting matcher source ⟨start, []⟩,
    ?_, fun hnesting => ⟨?_, fun hkeeps hrange hrounds => ?_⟩, Plain.exists_tip⟩
  · have hbegin : Progress.Nested matcher.depth 0 ⟨start, []⟩ := by
      refine ⟨rfl, fun moment hsuffix => ?_⟩
      rw [List.suffix_nil.1 hsuffix]
      exact Nat.zero_le _
    have hend : Post.Holds (.nested matcher.depth 0) watched :=
      call_nestsWithin hnatives label limits.rounds limits.nesting (by omega) source _ hbegin
    obtain ⟨ending, progress⟩ := watched
    cases ending with
    | returned outcome => exact hend.opensAtMost
    | raised fault => exact hend
    | exhausted => exact hend
  · exact congrFun (congrFun (behave_eq_of_depth_le hnesting (Nat.le_refl _)) source) ⟨start, []⟩
  · have hcontract : (matcher.behaviour (.ofNatives natives) limits).Keeps False source :=
      CallsOnly.behave_keeps (fun target _ => ⟨natives target, rfl, hkeeps target⟩)
        (callsOnly_of_forall (fun _ => trivial) matcher) hrounds hnesting
    obtain ⟨outcome, progress, hrun, -⟩ := (hcontract ⟨start, []⟩ hrange).exists_returned
      (fun _ _ hraised => hraised) (fun _ hgaveUp => hgaveUp)
    exact ⟨outcome, progress, hrun⟩

/-- In the first tree the deepest matcher in progress is the call, once in each of two rounds, of
    which the second is rewound. In the second tree it is the character and not the alternation
    without branches. -/
theorem openCalls_le_depth_rewound_round :
    let natives : Unit → Behaviour := fun _ => Probe.any.behaviour
    let matcher : Matcher Unit := .quant (.seq [.opt (.call ()), .char ['a']]) 0 none
    let bare : Matcher Unit := .seq [.alt [], .opt (.char ['a'])]
    let label : Matcher Unit → Text := fun _ => []
    let limits : Limits := ⟨4, 3⟩
    let source : Text := ['a', 'b']
    (∀ target, (natives target).CallsNone) ∧ matcher.depth ≤ limits.nesting ∧
      (∀ target, (natives target).Keeps False source) ∧ source.InRange 0 ∧
      source.length < limits.rounds ∧ bare.Plain ∧
      (openCalls ((matcher.watchedRun label natives limits ⟨source, 0⟩).2.journal.drop 9)).length
        = matcher.depth ∧
      (∀ moment, moment <:+ (matcher.watchedRun label natives limits ⟨source, 0⟩).2.journal →
        (openCalls moment).length ≤ matcher.depth) ∧
      (∃ outcome progress, (matcher.behaviour (.ofNatives natives) limits).run ⟨source, 0⟩
        = (.returned outcome, progress)) ∧
      ∃ tip : Matcher Unit, tip.IsTip ∧ tip.LiesAt bare bare.depth := by
  intro natives matcher bare label limits source
  have hnatives : ∀ target, (natives target).CallsNone := fun _ => Probe.any.behaviour_callsNone
  have hkeeps : ∀ target, (natives target).Keeps False source := fun _ =>
    Probe.any_keeps False source
  have hrange : source.InRange 0 := ⟨by decide, by decide⟩
  have hnesting : matcher.depth ≤ limits.nesting := by decide
  have hrounds : source.length < limits.rounds := by decide
  have hbare : bare.Plain := by
    refine .seq ?_
    simp only [List.forall_mem_cons]
    exact ⟨.alt nofun, .opt (.char _), nofun⟩
  obtain ⟨-, hopen, hwide, -⟩ := openCalls_le_depth hnatives label matcher limits source 0
  obtain ⟨-, -, -, htip⟩ := openCalls_le_depth hnatives label bare limits source 0
  exact ⟨hnatives, hnesting, hkeeps, hrange, hrounds, hbare, by decide +kernel, hopen,
    (hwide hnesting).2 hkeeps hrange hrounds, htip hbare⟩

end Matcher

end CursorGrammar
