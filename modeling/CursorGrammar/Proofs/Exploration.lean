import CursorGrammar.Proofs.Threads

set_option autoImplicit false

/-! # Exploring the program at one place

Between two characters a search explores the blocks of the program and enters each of them once.
Its effort is enough to explore all that it can reach. So if it does not accept at a place, then
for every text that the program accepts from there some thread waits for the first character. -/

namespace CursorGrammar

/-! ## The effort of a search -/

/-- Twice the number of steps in those blocks, numbered from `first` on, that are not marked. -/
def Marks.stepsLeft (marks : Marks) : Nat → List Block → Nat
  | _, [] => 0
  | first, block :: blocks =>
    (if marks.contains first then 0 else 2 * block.length) + marks.stepsLeft (first + 1) blocks

/-- How many steps there are in the blocks. -/
def Block.total (blocks : List Block) : Nat :=
  blocks.foldl (fun total block => total + block.length) 0

theorem Block.total_cons (block : Block) (blocks : List Block) :
    total (block :: blocks) = block.length + total blocks := by
  have hfrom : ∀ n, blocks.foldl (fun total block => total + block.length) n
      = n + total blocks := by
    unfold total
    induction blocks with
    | nil => exact fun n => rfl
    | cons next blocks ih =>
      intro n
      rw [List.foldl_cons, List.foldl_cons, ih (n + next.length), ih (0 + next.length)]
      omega
  unfold total
  rw [List.foldl_cons, Nat.zero_add, hfrom]
  rfl

namespace Marks

variable {marks : Marks}

theorem stepsLeft_insert_of_lt {n first : Nat} (h : n < first) (blocks : List Block) :
    (marks.insert n).stepsLeft first blocks = marks.stepsLeft first blocks := by
  induction blocks generalizing first with
  | nil => rfl
  | cons block blocks ih =>
    have hsame : (marks.insert n).contains first = marks.contains first := by
      rw [Bool.eq_iff_iff, contains_insert]
      constructor
      · rintro (⟨rfl, -⟩ | hold)
        · exact absurd h (Nat.lt_irrefl _)
        · exact hold
      · exact Or.inr
    unfold stepsLeft
    rw [hsame, ih (Nat.lt_succ_of_lt h)]

/-- To mark a block takes its steps off those that are left. -/
theorem stepsLeft_insert {n first : Nat} (hnew : marks.contains n = false)
    (hbound : n < marks.flags.size) (hfirst : first ≤ n) (blocks : List Block) :
    (marks.insert n).stepsLeft first blocks + 2 * (blocks.getD (n - first) []).length
      = marks.stepsLeft first blocks := by
  induction blocks generalizing first with
  | nil => rfl
  | cons block blocks ih =>
    unfold stepsLeft
    by_cases hhere : first = n
    · subst hhere
      have hmarked : (marks.insert first).contains first = true :=
        (contains_insert ..).2 (Or.inl ⟨rfl, hbound⟩)
      rw [hmarked, hnew, stepsLeft_insert_of_lt (Nat.lt_succ_self first), Nat.sub_self]
      simp
      omega
    · have hother : (marks.insert n).contains first = marks.contains first := by
        rw [Bool.eq_iff_iff, contains_insert]
        simp [hhere]
      have hlater := ih (show first + 1 ≤ n by omega)
      have hplace : n - first = (n - (first + 1)) + 1 := by omega
      rw [hother, hplace, List.getD_cons_succ, Nat.add_assoc, hlater]

theorem stepsLeft_le (first : Nat) (blocks : List Block) :
    marks.stepsLeft first blocks ≤ 2 * Block.total blocks := by
  induction blocks generalizing first with
  | nil => exact Nat.zero_le _
  | cons block blocks ih =>
    have hlater := ih (first + 1)
    rw [Block.total_cons]
    unfold stepsLeft
    split <;> omega

end Marks

/-- How much effort the step may take; a condition may lead to one more step. -/
def Step.weight : Step → Nat
  | .test _ _ => 2
  | _ => 1

/-- How much effort the steps may take. -/
def Block.weight : Block → Nat
  | [] => 0
  | step :: steps => step.weight + weight steps

theorem Block.weight_cons (step : Step) (steps : Block) :
    weight (step :: steps) = step.weight + weight steps :=
  rfl

theorem Block.weight_append_le (block steps : Block) :
    weight (block ++ steps) ≤ 2 * block.length + weight steps := by
  induction block with
  | nil => exact Nat.le_add_left _ _
  | cons step block ih =>
    have hstep : step.weight ≤ 2 := by cases step <;> simp [Step.weight]
    rw [List.cons_append, List.length_cons, weight_cons]
    omega

/-! ## What has been seen to -/

/-- One frontier after another, when more has been found out. -/
structure Frontier.Within (frontier frontier' : Frontier) : Prop where
  waiting : frontier.waiting <:+ frontier'.waiting
  entered : ∀ n, frontier.entered.contains n = true → frontier'.entered.contains n = true

theorem Frontier.Within.refl (frontier : Frontier) : frontier.Within frontier :=
  ⟨List.suffix_refl _, fun _ => id⟩

theorem Frontier.Within.trans {frontier frontier' frontier'' : Frontier}
    (h : frontier.Within frontier') (h' : frontier'.Within frontier'') :
    frontier.Within frontier'' :=
  ⟨h.waiting.trans h'.waiting, fun n hn => h'.entered n (h.entered n hn)⟩

theorem Frontier.within_wait (frontier : Frontier) (thread : Thread) :
    frontier.Within (frontier.wait thread) :=
  ⟨List.suffix_cons _ _, fun _ => id⟩

theorem Frontier.within_enter (frontier : Frontier) (n : Nat) :
    frontier.Within (frontier.enter n) :=
  ⟨List.suffix_refl _, fun _ hm => (Marks.contains_insert ..).2 (Or.inr hm)⟩

/-- The step has been seen to: a thread waits where it reads, and the block has been entered to
    which it leads. Nothing is asked of tests. -/
def Frontier.Settled (program : Program) (frontier : Frontier) : Step → Prop
  | .accept => False
  | .read members next =>
    ∃ thread ∈ frontier.waiting, thread.members = members ∧ thread.next = next
  | .test _ _ => True
  | .jump next => frontier.entered.contains next = true ∨ program.block next = []

theorem Frontier.Settled.mono {program : Program} {frontier frontier' : Frontier} {step : Step}
    (h : frontier.Settled program step) (hwithin : frontier.Within frontier') :
    frontier'.Settled program step := by
  cases step with
  | accept => exact h
  | read members next =>
    obtain ⟨thread, hmem, hthread⟩ := h
    exact ⟨thread, hwithin.waiting.subset hmem, hthread⟩
  | test assertion next => exact trivial
  | jump next => exact h.imp (hwithin.entered next) id

/-- The steps of the blocks that have been entered have been seen to, but for those that are still
    to be taken. -/
structure Frontier.Explored (program : Program) (frontier : Frontier) (steps : Block) : Prop where
  size : frontier.entered.flags.size = program.blocks.size
  settled : ∀ n, frontier.entered.contains n = true → ∀ step ∈ program.block n,
    frontier.Settled program step ∨ step ∈ steps

/-- The next step is taken: it has been seen to, and all blocks newly entered are still to come. -/
theorem Frontier.Explored.advance {program : Program} {frontier frontier' : Frontier} {step : Step}
    {steps steps' : Block} (h : frontier.Explored program (step :: steps))
    (hwithin : frontier.Within frontier')
    (hsize : frontier'.entered.flags.size = frontier.entered.flags.size)
    (hsettled : frontier'.Settled program step) (hsteps : ∀ s ∈ steps, s ∈ steps')
    (hnew : ∀ n, frontier'.entered.contains n = true →
      frontier.entered.contains n = true ∨ ∀ s ∈ program.block n, s ∈ steps') :
    frontier'.Explored program steps' := by
  refine ⟨hsize.trans h.size, ?_⟩
  intro n hn s hs
  rcases hnew n hn with hold | hcoming
  · rcases h.settled n hold s hs with hsettled | hmem
    · exact Or.inl (hsettled.mono hwithin)
    · rcases List.mem_cons.1 hmem with rfl | hmem
      · exact Or.inl hsettled
      · exact Or.inr (hsteps s hmem)
  · exact Or.inr (hcoming s hs)

/-- A match has been found, or these steps have been seen to and all that they lead to. -/
def Frontier.Finished (program : Program) (steps : Block) (frontier : Frontier) : Prop :=
  frontier.accepted.isSome = true ∨
    frontier.Explored program [] ∧ ∀ step ∈ steps, frontier.Settled program step

/-- What finishes the other steps finishes a step with them that has been seen to before. -/
theorem Frontier.Finished.of_settled {program : Program} {frontier frontier' : Frontier}
    {step : Step} {steps steps' : Block} (h : frontier'.Finished program steps')
    (hwithin : frontier.Within frontier') (hsettled : frontier.Settled program step)
    (hsteps : ∀ s ∈ steps, s ∈ steps') : frontier'.Finished program (step :: steps) := by
  refine h.imp id ?_
  rintro ⟨hexplored, hsettled'⟩
  refine ⟨hexplored, List.forall_mem_cons.2 ⟨hsettled.mono hwithin, ?_⟩⟩
  exact fun s hs => hsettled' s (hsteps s hs)

namespace Program

variable {program : Program} {place : Surroundings} {frontier : Frontier}

theorem follow_within (start fuel : Nat) (steps : Block) :
    frontier.Within (program.follow place start fuel steps frontier) := by
  induction fuel generalizing steps frontier with
  | zero => exact .refl _
  | succ fuel ih =>
    cases steps with
    | nil => exact .refl _
    | cons step steps =>
      unfold follow
      cases step with
      | accept => exact ⟨List.suffix_refl _, fun _ => id⟩
      | read members next => exact (frontier.within_wait _).trans (ih steps)
      | test assertion next => exact ih _
      | jump next =>
        dsimp only
        split
        next => exact ih steps
        next => exact (frontier.within_enter next).trans (ih _)

/-- There is enough effort for all the steps of the program. -/
def Tireless (program : Program) : Prop :=
  2 * Block.total program.blocks.toList + 1 < program.effort

theorem ofBlocks_tireless (anchored : Bool) (start : Nat) (blocks : List Block) :
    (ofBlocks anchored start blocks).Tireless :=
  Nat.lt_succ_self _

theorem block_eq_nil {n : Nat} (h : program.blocks.size ≤ n) : program.block n = [] := by
  unfold block
  rw [Array.getD_eq_getD_getElem?, Array.getElem?_eq_none h]
  rfl

/-- To enter a block takes its steps off those that are left. -/
theorem stepsLeft_enter {n : Nat} (hsize : frontier.entered.flags.size = program.blocks.size)
    (hnew : frontier.entered.contains n = false) :
    (frontier.enter n).entered.stepsLeft 0 program.blocks.toList + 2 * (program.block n).length
      = frontier.entered.stepsLeft 0 program.blocks.toList := by
  by_cases hbound : n < program.blocks.size
  · have hblock : program.block n = program.blocks.toList.getD (n - 0) [] := by
      unfold block
      simp [Array.getD_eq_getD_getElem?, List.getD_eq_getElem?_getD]
    rw [hblock]
    exact Marks.stepsLeft_insert hnew (hsize ▸ hbound) (Nat.zero_le n) _
  · have hout := Nat.le_of_not_lt hbound
    have hsame : frontier.entered.insert n = frontier.entered := by
      unfold Marks.insert
      rw [Array.setIfInBounds_eq_of_size_le (hsize ▸ hout)]
    show (frontier.entered.insert n).stepsLeft 0 _ + _ = _
    rw [hsame, block_eq_nil hout]
    rfl

/-- A block has been seen to when it has been entered, with its steps still to come. -/
theorem enter_explored {next : Nat} {steps : Block}
    (h : frontier.Explored program (.jump next :: steps)) :
    (frontier.enter next).Settled program (.jump next) ∧
      (frontier.enter next).Explored program (program.block next ++ steps) := by
  have hsettled : (frontier.enter next).Settled program (.jump next) := by
    by_cases hbound : next < program.blocks.size
    · exact Or.inl ((Marks.contains_insert ..).2 (Or.inl ⟨rfl, h.size ▸ hbound⟩))
    · exact Or.inr (block_eq_nil (Nat.le_of_not_lt hbound))
  refine ⟨hsettled, h.advance (frontier.within_enter next) Array.size_setIfInBounds hsettled
    (fun _ => List.mem_append_right _) ?_⟩
  intro n hn
  rcases (Marks.contains_insert ..).1 hn with ⟨rfl, -⟩ | hold
  · exact Or.inr fun _ => List.mem_append_left _
  · exact Or.inl hold

/-- With enough effort all steps are seen to, unless a match is found first. -/
theorem follow_finished {start fuel : Nat} {steps : Block}
    (hfuel : frontier.entered.stepsLeft 0 program.blocks.toList + Block.weight steps < fuel)
    (h : frontier.Explored program steps) :
    (program.follow place start fuel steps frontier).Finished program steps := by
  induction fuel generalizing steps frontier with
  | zero => exact absurd hfuel (Nat.not_lt_zero _)
  | succ fuel ih =>
    cases steps with
    | nil => exact Or.inr ⟨h, List.forall_mem_nil _⟩
    | cons step steps =>
      rw [Block.weight_cons] at hfuel
      unfold follow
      cases step with
      | accept => exact Or.inl rfl
      | read members next =>
        simp only [Step.weight] at hfuel
        have hleft : (frontier.wait ⟨start, members, next⟩).entered.stepsLeft 0
            program.blocks.toList = frontier.entered.stepsLeft 0 program.blocks.toList := rfl
        have hsettled : (frontier.wait ⟨start, members, next⟩).Settled program
            (.read members next) := ⟨_, List.mem_cons_self .., rfl, rfl⟩
        have hnext := h.advance (frontier.within_wait _) rfl hsettled (fun _ => id)
          (fun _ => Or.inl)
        exact (ih (by omega) hnext).of_settled (follow_within ..) hsettled (fun _ => id)
      | test assertion next =>
        simp only [Step.weight] at hfuel
        have hsettled : frontier.Settled program (.test assertion next) := trivial
        dsimp only
        split
        next =>
          have hjump := h.advance (.refl _) rfl hsettled
            (fun _ => List.mem_cons_of_mem (Step.jump next)) (fun _ => Or.inl)
          have hweight : Block.weight (.jump next :: steps) = 1 + Block.weight steps := rfl
          exact (ih (by omega) hjump).of_settled (follow_within ..) hsettled
            (fun _ => List.mem_cons_of_mem _)
        next =>
          have hnext := h.advance (.refl _) rfl hsettled (fun _ => id) (fun _ => Or.inl)
          exact (ih (by omega) hnext).of_settled (follow_within ..) hsettled (fun _ => id)
      | jump next =>
        simp only [Step.weight] at hfuel
        dsimp only
        split
        next hentered =>
          have hsettled : frontier.Settled program (.jump next) := Or.inl hentered
          have hnext := h.advance (.refl _) rfl hsettled (fun _ => id) (fun _ => Or.inl)
          exact (ih (by omega) hnext).of_settled (follow_within ..) hsettled (fun _ => id)
        next hnot =>
          -- the effort for the steps of the block is set free by its mark
          have hleft := stepsLeft_enter h.size (Bool.eq_false_iff.2 hnot)
          have hweight := Block.weight_append_le (program.block next) steps
          obtain ⟨hsettled, hnext⟩ := enter_explored h
          exact (ih (by omega) hnext).of_settled (follow_within ..) hsettled
            (fun _ => List.mem_append_right _)

/-! ## Pending threads -/

theorem extend_of_accepted (h : frontier.accepted.isSome = true) (pending : List Pending) :
    program.extend place frontier pending = frontier := by
  induction pending with
  | nil => rfl
  | cons thread pending ih =>
    rw [extend_cons, if_pos h]
    exact ih

theorem extend_within (pending : List Pending) :
    frontier.Within (program.extend place frontier pending) := by
  induction pending generalizing frontier with
  | nil => exact .refl _
  | cons thread pending ih =>
    rw [extend_cons]
    split
    next => exact ih
    next => exact (follow_within ..).trans ih

theorem extend_finished (htireless : program.Tireless) {pending : List Pending}
    (h : frontier.Explored program []) :
    (program.extend place frontier pending).Finished program
      (pending.map fun thread => .jump thread.2) := by
  induction pending generalizing frontier with
  | nil => exact Or.inr ⟨h, List.forall_mem_nil _⟩
  | cons thread pending ih =>
    by_cases haccepted : frontier.accepted.isSome = true
    · rw [extend_of_accepted haccepted]
      exact Or.inl haccepted
    · rw [extend_cons, if_neg haccepted]
      have hjump : frontier.Explored program [.jump thread.2] :=
        ⟨h.size, fun n hn step hstep => (h.settled n hn step hstep).imp id nofun⟩
      have hfuel : frontier.entered.stepsLeft 0 program.blocks.toList
          + Block.weight [.jump thread.2] < program.effort :=
        Nat.lt_of_le_of_lt (Nat.add_le_add_right (Marks.stepsLeft_le ..) 1) htireless
      rcases @follow_finished program place frontier thread.1 _ _ hfuel hjump with
        hfound | ⟨hexplored, hsettled⟩
      · rw [extend_of_accepted hfound]
        exact Or.inl hfound
      · exact (ih hexplored).of_settled (extend_within pending)
          (hsettled _ (List.mem_singleton_self _)) (fun _ => id)

theorem new_explored : (Frontier.new program.blocks.size).Explored program [] := by
  refine ⟨Array.size_replicate, ?_⟩
  intro n hn
  have hnone : (Frontier.new program.blocks.size).entered.contains n = false :=
    Marks.contains_none ..
  rw [hnone] at hn
  cases hn

/-- A search explores all that its threads can reach at a place, unless one of them accepts. -/
theorem frontier_finished (htireless : program.Tireless) (place : Surroundings)
    (pending : List Pending) :
    (program.frontier place pending).Finished program
      (pending.map fun thread => .jump thread.2) :=
  extend_finished htireless new_explored

/-! ## Texts that the program accepts -/

/-- From the step on the program accepts the text, without a test on the way. -/
inductive Spells (program : Program) : Step → Text → Prop
  | accept : Spells program .accept []
  | read {members : CharSet} {next : Nat} {c : Char} {t : Text}
      (hc : members.contains c = true) (h : Spells program (.jump next) t) :
      Spells program (.read members next) (c :: t)
  | jump {next : Nat} {step : Step} {t : Text} (hstep : step ∈ program.block next)
      (h : Spells program step t) : Spells program (.jump next) t

/-- Where no match ends, a thread waits to read on in every text that the program accepts. -/
theorem Spells.exists_waiting {step : Step} {t : Text} (h : program.Spells step t)
    (hexplored : frontier.Explored program []) (hsettled : frontier.Settled program step) :
    ∃ c rest, t = c :: rest ∧ ∃ thread ∈ frontier.waiting,
      thread.members.contains c = true ∧ program.Spells (.jump thread.next) rest := by
  induction h with
  | accept => exact hsettled.elim
  | @read members next c t hc h =>
    obtain ⟨thread, hmem, rfl, rfl⟩ := hsettled
    exact ⟨c, t, rfl, thread, hmem, hc, h⟩
  | @jump next step t hstep h ih =>
    rcases hsettled with hentered | hempty
    · exact ih ((hexplored.settled next hentered step hstep).resolve_right nofun)
    · rw [hempty] at hstep
      cases hstep

end Program

end CursorGrammar
