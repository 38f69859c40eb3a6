import CursorGrammar.Regex.Search

set_option autoImplicit false

/-! # What is known of the threads of a search

A search follows threads, each from where it began. Whatever is known of a thread when it begins,
and stays known with every step that it takes and every character that it reads, is known of the
thread that accepts the match in the end. -/

namespace CursorGrammar

/-- What may be known of a thread: from where it began and the step that it is at. -/
abbrev Knowledge := Nat → Step → Prop

/-- It is known of the threads that wait, and of the one that has accepted. -/
structure Frontier.Knows (known : Knowledge) (frontier : Frontier) : Prop where
  waiting : ∀ thread ∈ frontier.waiting, known thread.start (.read thread.members thread.next)
  accepted : ∀ start ∈ frontier.accepted, known start .accept

theorem Frontier.mem_read_iff {frontier : Frontier} {c : Char} {thread : Program.Pending} :
    thread ∈ frontier.read c ↔ ∃ waiting ∈ frontier.waiting,
      waiting.members.contains c = true ∧ (waiting.start, waiting.next) = thread := by
  unfold read
  simp only [List.mem_map, List.mem_reverse, List.mem_filter, and_assoc]

namespace Program

variable {program : Program}

/-! ## At one place -/

/-- What is known of a thread stays known when it goes on at the place without reading. -/
structure Carries (program : Program) (place : Surroundings) (known : Knowledge) : Prop where
  jump : ∀ start next, known start (.jump next) → ∀ step ∈ program.block next, known start step
  test : ∀ start assertion next, known start (.test assertion next) →
    assertion.holds place = true → known start (.jump next)

section Place

variable {place : Surroundings} {known : Knowledge} {frontier : Frontier}

theorem follow_knows (hcarries : program.Carries place known) {start : Nat} (fuel : Nat)
    {steps : Block} (hsteps : ∀ step ∈ steps, known start step) (h : frontier.Knows known) :
    (program.follow place start fuel steps frontier).Knows known := by
  induction fuel generalizing steps frontier with
  | zero => exact h
  | succ fuel ih =>
    cases steps with
    | nil => exact h
    | cons step steps =>
      obtain ⟨hstep, hrest⟩ := List.forall_mem_cons.1 hsteps
      unfold follow
      cases step with
      | accept =>
        refine ⟨h.waiting, ?_⟩
        rintro _ ⟨⟩
        exact hstep
      | read members next =>
        exact ih hrest ⟨List.forall_mem_cons.2 ⟨hstep, h.waiting⟩, h.accepted⟩
      | test assertion next =>
        refine ih ?_ h
        split
        next hholds => exact List.forall_mem_cons.2 ⟨hcarries.test _ _ _ hstep hholds, hrest⟩
        next => exact hrest
      | jump next =>
        dsimp only
        split
        next => exact ih hrest h
        next =>
          refine ih ?_ ⟨h.waiting, h.accepted⟩
          intro step hmem
          rcases List.mem_append.1 hmem with hblock | hmem
          · exact hcarries.jump start next hstep step hblock
          · exact hrest step hmem

/-- The frontier after further pending threads. -/
def extend (program : Program) (place : Surroundings) (frontier : Frontier)
    (pending : List Pending) : Frontier :=
  pending.foldl (fun frontier thread =>
    if frontier.accepted.isSome then frontier
    else program.follow place thread.1 program.effort [.jump thread.2] frontier) frontier

theorem extend_cons (thread : Pending) (pending : List Pending) :
    program.extend place frontier (thread :: pending)
      = program.extend place (if frontier.accepted.isSome then frontier
        else program.follow place thread.1 program.effort [.jump thread.2] frontier) pending :=
  rfl

theorem extend_knows (hcarries : program.Carries place known) {pending : List Pending}
    (hpending : ∀ thread ∈ pending, known thread.1 (.jump thread.2)) (h : frontier.Knows known) :
    (program.extend place frontier pending).Knows known := by
  induction pending generalizing frontier with
  | nil => exact h
  | cons thread pending ih =>
    obtain ⟨hthread, hrest⟩ := List.forall_mem_cons.1 hpending
    rw [extend_cons]
    refine ih hrest ?_
    split
    next => exact h
    next => exact follow_knows hcarries _ (by simpa using hthread) h

theorem frontier_knows (hcarries : program.Carries place known) {pending : List Pending}
    (hpending : ∀ thread ∈ pending, known thread.1 (.jump thread.2)) :
    (program.frontier place pending).Knows known :=
  extend_knows hcarries hpending ⟨nofun, nofun⟩

end Place

/-! ## Along the text

What is known of a thread depends on the text that has been read, up to the place where it is. -/

/-- What is known of a thread stays known along the text. -/
structure Tracks (program : Program) (known : Text → Knowledge) : Prop where
  carries : ∀ (done : Text) (place : Surroundings), (done ≠ [] → place.before.isSome = true) →
    program.Carries place (known done)
  read : ∀ done start members next c, known done start (.read members next) →
    members.contains c = true → known (done ++ [c]) start (.jump next)

/-- It is known of the threads that may begin, wherever they do. -/
def Begins (program : Program) (known : Text → Knowledge) : Prop :=
  ∀ done : Text, done = [] ∨ program.anchored = false →
    known done done.length (.jump program.start)

/-- The match is one of a thread that accepts where it ends. -/
def Accounts (known : Text → Knowledge) (t : Text) (extent : Extent) : Prop :=
  ∃ done rest, t = done ++ rest ∧ extent.stop = done.length ∧ known done extent.start .accept

/-- The match so far after a place, given the frontier there. -/
def bestAfter (program : Program) (index : Nat) (best : Option Extent) (frontier : Frontier)
    (c : Char) : Option Extent :=
  ((frontier.accepted.map fun start => ⟨start, index⟩).or best).or (program.insideMatch index c)

section Scan

variable {best : Option Extent} {pending : List Pending} {before : Option Char} {index : Nat}

theorem scan_nil : program.scan before index best pending [] =
    ((program.frontier ⟨before, none⟩ (program.begun index best pending)).accepted.map
      fun start => ⟨start, index⟩).or best := by
  unfold scan
  cases (program.frontier ⟨before, none⟩ (program.begun index best pending)).accepted <;> rfl

theorem scan_cons (c : Char) (rest : Text) :
    program.scan before index best pending (c :: rest) =
      let frontier := program.frontier ⟨before, some c⟩ (program.begun index best pending)
      let best := program.bestAfter index best frontier c
      if frontier.read c = [] ∧ (best.isSome || program.anchored) = true then best
      else program.scan (some c) (index + 1) best (frontier.read c) rest := by
  rw [scan]
  dsimp only
  unfold bestAfter
  generalize program.frontier ⟨before, some c⟩ (program.begun index best pending) = frontier
  cases frontier.accepted <;> cases best <;> cases frontier.read c <;> simp

variable {known : Text → Knowledge} {done rest : Text} {extent : Extent}

theorem begun_known (hbegins : best = none → program.Begins known)
    (hpending : ∀ thread ∈ pending, known done thread.1 (.jump thread.2)) :
    ∀ thread ∈ program.begun done.length best pending, known done thread.1 (.jump thread.2) := by
  unfold begun
  split
  next hnew =>
    simp only [Bool.and_eq_true, Option.isNone_iff_eq_none, Bool.or_eq_true, beq_iff_eq,
      Bool.not_eq_true', List.length_eq_zero_iff] at hnew
    obtain ⟨hbest, hplace⟩ := hnew
    intro thread hmem
    rcases List.mem_append.1 hmem with hold | hnew
    · exact hpending thread hold
    · obtain rfl := List.mem_singleton.1 hnew
      exact hbegins hbest done hplace
  next => exact hpending

theorem insideMatch_known (htracks : program.Tracks known) (hbegins : program.Begins known)
    {c : Char} (h : program.insideMatch done.length c = some extent) :
    extent.stop = done.length ∧ known done extent.start .accept := by
  unfold insideMatch at h
  split at h
  next => cases h
  next hinside =>
    obtain ⟨start, haccepted, rfl⟩ := Option.map_eq_some_iff.1 h
    have hcarries := htracks.carries done (.inside c) (fun _ => rfl)
    -- the one thread there is has begun at this place
    have hcarries' : program.Carries (.inside c)
        (fun start step => start = done.length ∧ known done start step) := by
      refine ⟨?_, ?_⟩
      · intro start next hjump step hstep
        exact ⟨hjump.1, hcarries.jump start next hjump.2 step hstep⟩
      · intro start assertion next htest hholds
        exact ⟨htest.1, hcarries.test start assertion next htest.2 hholds⟩
    have hanchored : program.anchored = false := by
      cases hprogram : program.anchored with
      | true => exact absurd (Or.inr hprogram) hinside
      | false => rfl
    have hpending : ∀ thread ∈ [(done.length, program.start)],
        thread.1 = done.length ∧ known done thread.1 (.jump thread.2) := by
      intro thread hmem
      obtain rfl := List.mem_singleton.1 hmem
      exact ⟨rfl, hbegins done (Or.inr hanchored)⟩
    have hknows := (frontier_knows hcarries' hpending).accepted start haccepted
    rw [hknows.1] at hknows
    exact ⟨rfl, hknows.2⟩

theorem read_known (htracks : program.Tracks known) {frontier : Frontier} {c : Char}
    (h : frontier.Knows (known done)) :
    ∀ thread ∈ frontier.read c, known (done ++ [c]) thread.1 (.jump thread.2) := by
  intro thread hmem
  obtain ⟨waiting, hwaiting, hc, rfl⟩ := Frontier.mem_read_iff.1 hmem
  exact htracks.read _ _ _ _ _ (h.waiting waiting hwaiting) hc

/-- After a place the match so far is the one before, or it ends at the place. -/
theorem bestAfter_known (htracks : program.Tracks known)
    (hbegins : best = none → program.Begins known) {frontier : Frontier} {c : Char}
    (hknows : frontier.Knows (known done))
    (h : program.bestAfter done.length best frontier c = some extent) :
    best = some extent ∨ extent.stop = done.length ∧ known done extent.start .accept := by
  unfold bestAfter at h
  rw [Option.or_eq_some_iff, Option.or_eq_some_iff] at h
  rcases h with (hended | ⟨-, hbest⟩) | ⟨hnone, hinside⟩
  · obtain ⟨start, haccepted, rfl⟩ := Option.map_eq_some_iff.1 hended
    exact Or.inr ⟨rfl, hknows.accepted start haccepted⟩
  · exact Or.inl hbest
  · have hbest := (Option.or_eq_none_iff.1 hnone).2
    exact Or.inr (insideMatch_known htracks (hbegins hbest) hinside)

theorem best_eq_none_of_bestAfter {frontier : Frontier} {c : Char}
    (h : program.bestAfter index best frontier c = none) : best = none := by
  unfold bestAfter at h
  rw [Option.or_eq_none_iff, Option.or_eq_none_iff] at h
  exact h.1.2

/-- The match that a search comes to is the one it already had, or one of a thread. -/
theorem scan_accounts (htracks : program.Tracks known)
    (hbegins : best = none → program.Begins known)
    (hpending : ∀ thread ∈ pending, known done thread.1 (.jump thread.2))
    (h : program.scan done.getLast? done.length best pending rest = some extent) :
    best = some extent ∨ Accounts known (done ++ rest) extent := by
  induction rest generalizing done best pending with
  | nil =>
    rw [scan_nil, Option.or_eq_some_iff] at h
    rcases h with hended | ⟨-, hbest⟩
    · obtain ⟨start, haccepted, rfl⟩ := Option.map_eq_some_iff.1 hended
      have hcarries := htracks.carries done ⟨done.getLast?, none⟩ (by simp)
      have hknows := frontier_knows hcarries (begun_known hbegins hpending)
      exact Or.inr ⟨done, [], rfl, rfl, hknows.accepted start haccepted⟩
    · exact Or.inl hbest
  | cons c rest ih =>
    rw [scan_cons] at h
    dsimp only at h
    have hcarries := htracks.carries done ⟨done.getLast?, some c⟩ (by simp)
    have hknows := frontier_knows hcarries (begun_known hbegins hpending)
    generalize program.frontier ⟨done.getLast?, some c⟩ (program.begun done.length best pending)
      = frontier at h hknows
    have hafter : program.bestAfter done.length best frontier c = some extent →
        best = some extent ∨ Accounts known (done ++ c :: rest) extent := fun hbest =>
      (bestAfter_known htracks hbegins hknows hbest).imp id fun haccept =>
        ⟨done, c :: rest, rfl, haccept⟩
    split at h
    next => exact hafter h
    next =>
      -- once there is a match no thread begins any more, so nothing need be known of those
      have hbegins' : program.bestAfter done.length best frontier c = none →
          program.Begins known := fun hnone => hbegins (best_eq_none_of_bestAfter hnone)
      have hscan : program.scan (done ++ [c]).getLast? (done ++ [c]).length
          (program.bestAfter done.length best frontier c) (frontier.read c) rest
          = some extent := by
        simpa using h
      rcases ih hbegins' (read_known htracks hknows) hscan with hbest | haccounts
      · exact hafter hbest
      · rw [List.append_assoc] at haccounts
        exact Or.inr haccounts

/-- A search comes to a match of which all is known that is known of the threads. -/
theorem search_accounts (htracks : program.Tracks known) (hbegins : program.Begins known)
    {t : Text} (h : program.search t = some extent) : Accounts known t extent := by
  have hscan : program.scan ([] : Text).getLast? ([] : Text).length none [] t = some extent := h
  rcases scan_accounts htracks (fun _ => hbegins) (List.forall_mem_nil _) hscan with
    hbest | haccounts
  · cases hbest
  · exact haccounts

end Scan

/-- A match does not reach beyond the end of the text. -/
theorem search_stop_le {t : Text} {extent : Extent} (h : program.search t = some extent) :
    extent.stop ≤ t.length := by
  have htracks : program.Tracks fun _ _ _ => True :=
    ⟨fun _ _ _ => ⟨fun _ _ _ _ _ => trivial, fun _ _ _ _ _ => trivial⟩,
      fun _ _ _ _ _ _ _ => trivial⟩
  obtain ⟨done, rest, rfl, hstop, -⟩ := search_accounts htracks (fun _ _ => trivial) h
  rw [hstop, List.length_append]
  exact Nat.le_add_right _ _

/-! ## Threads that have begun at the beginning -/

theorem tracks_start : program.Tracks fun _ start _ => start = 0 :=
  ⟨fun _ _ _ => ⟨fun _ _ hstart _ _ => hstart, fun _ _ _ hstart _ => hstart⟩,
    fun _ _ _ _ _ hstart _ => hstart⟩

/-- If only the beginning of the text can begin a match, the match begins there. -/
theorem search_start_of_anchored {t : Text} {extent : Extent} (hanchored : program.anchored = true)
    (h : program.search t = some extent) : extent.start = 0 := by
  have hbegins : program.Begins fun _ start _ => start = 0 := by
    rintro done (rfl | hfalse)
    · rfl
    · rw [hanchored] at hfalse
      cases hfalse
  obtain ⟨_, _, _, _, hstart⟩ := search_accounts tracks_start hbegins h
  exact hstart

end Program

end CursorGrammar
