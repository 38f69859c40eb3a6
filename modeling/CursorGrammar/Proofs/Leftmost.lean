import CursorGrammar.Proofs.Exploration

set_option autoImplicit false

/-! # Matches at the beginning come first

If the program accepts some text that stands at the beginning, then the search comes to a match
that begins there. The threads that have begun at the beginning are preferred to all others, and
while none of them has accepted, one of them goes along with that text. -/

namespace CursorGrammar

/-- The threads that were found out about first are the first to read. -/
theorem Frontier.read_append {frontier frontier' : Frontier} {more : List Thread}
    (h : more ++ frontier.waiting = frontier'.waiting) (c : Char) :
    frontier'.read c = frontier.read c ++ Frontier.read ⟨frontier'.entered, more, none⟩ c := by
  unfold Frontier.read
  rw [← h]
  simp

theorem Frontier.read_start {frontier : Frontier}
    (h : ∀ thread ∈ frontier.waiting, thread.start = 0) (c : Char) :
    ∀ thread ∈ frontier.read c, thread.1 = 0 := by
  intro thread hmem
  obtain ⟨waiting, hwaiting, -, rfl⟩ := mem_read_iff.1 hmem
  exact h waiting hwaiting

namespace Program

variable {program : Program} {best : Option Extent} {pending : List Pending} {index : Nat}

/-- Where the threads before have begun at the beginning, others come after them. -/
theorem exists_begun_eq (first others : List Pending) :
    ∃ others', program.begun index best (first ++ others) = first ++ others' := by
  unfold begun
  split
  next => exact ⟨_, List.append_assoc ..⟩
  next => exact ⟨others, rfl⟩

theorem scan_isSome_of_best {before : Option Char} (h : best.isSome = true) (rest : Text) :
    (program.scan before index best pending rest).isSome = true := by
  induction rest generalizing before index best pending with
  | nil =>
    rw [scan_nil, Option.isSome_or, h, Bool.or_true]
  | cons c rest ih =>
    have hbest : ∀ frontier, (program.bestAfter index best frontier c).isSome = true := by
      intro frontier
      unfold bestAfter
      rw [Option.isSome_or, Option.isSome_or, h, Bool.or_true, Bool.true_or]
    rw [scan_cons]
    dsimp only
    split
    next => exact hbest _
    next => exact ih (hbest _)

/-- Once a match at the beginning is known, only threads from there go on. -/
theorem exists_scan_of_found {done rest : Text} {found : Extent} (hfound : found.start = 0)
    (hpending : ∀ thread ∈ pending, thread.1 = 0) :
    ∃ extent, program.scan done.getLast? done.length (some found) pending rest = some extent ∧
      extent.start = 0 := by
  have hsome : (program.scan done.getLast? done.length (some found) pending rest).isSome = true :=
    scan_isSome_of_best rfl rest
  obtain ⟨extent, hscan⟩ := Option.isSome_iff_exists.1 hsome
  refine ⟨extent, hscan, ?_⟩
  have hbegins : some found = none → program.Begins fun _ start _ => start = 0 := nofun
  rcases scan_accounts tracks_start hbegins hpending hscan with hbest | ⟨_, _, _, _, hstart⟩
  · cases hbest
    exact hfound
  · exact hstart

/-- At one place: either a thread from the beginning accepts, or one of them reads on in the text
    that the program accepts, before all threads that have begun later. -/
theorem frontier_of_spells (htireless : program.Tireless) (place : Surroundings) {t : Text}
    {first : List Pending} (hfirst : ∀ thread ∈ first, thread.1 = 0)
    (halive : ∃ thread ∈ first, program.Spells (.jump thread.2) t) (others : List Pending) :
    ((program.frontier place (first ++ others)).accepted = some 0 ∧
      ∀ thread ∈ (program.frontier place (first ++ others)).waiting, thread.start = 0) ∨
    ∃ (frontier : Frontier) (more : List Thread),
      more ++ frontier.waiting = (program.frontier place (first ++ others)).waiting ∧
      (∀ thread ∈ frontier.waiting, thread.start = 0) ∧
      ∃ c rest, t = c :: rest ∧ ∃ thread ∈ frontier.waiting,
        thread.members.contains c = true ∧ program.Spells (.jump thread.next) rest := by
  have hsplit : program.frontier place (first ++ others)
      = program.extend place (program.frontier place first) others :=
    List.foldl_append ..
  have hknows : (program.frontier place first).Knows fun start _ => start = 0 :=
    frontier_knows (tracks_start.carries [] place (fun h => absurd rfl h)) hfirst
  rw [hsplit]
  rcases frontier_finished htireless place first with
    haccepted | ⟨hexplored, hsettled⟩
  · left
    rw [extend_of_accepted haccepted]
    obtain ⟨start, hstart⟩ := Option.isSome_iff_exists.1 haccepted
    have hzero := hknows.accepted start hstart
    exact ⟨hzero ▸ hstart, hknows.waiting⟩
  · right
    obtain ⟨thread, hmem, hspells⟩ := halive
    have hwithin : (program.frontier place first).Within
        (program.extend place (program.frontier place first) others) := extend_within others
    obtain ⟨more, hmore⟩ := hwithin.waiting
    exact ⟨program.frontier place first, more, hmore, hknows.waiting,
      hspells.exists_waiting hexplored (hsettled _ (List.mem_map_of_mem hmem))⟩

/-- As long as one thread from the beginning goes along with a text that the program accepts, the
    search is going to come to a match that begins there. -/
theorem exists_scan_of_spells (htireless : program.Tireless) {done rest t : Text}
    {first others : List Pending}
    (hbegun : program.begun done.length best pending = first ++ others)
    (hfirst : ∀ thread ∈ first, thread.1 = 0)
    (halive : ∃ thread ∈ first, program.Spells (.jump thread.2) t) (ht : t <+: rest) :
    ∃ extent, program.scan done.getLast? done.length best pending rest = some extent ∧
      extent.start = 0 := by
  induction rest generalizing done best pending first others t with
  | nil =>
    rw [scan_nil, hbegun]
    rcases frontier_of_spells htireless ⟨done.getLast?, none⟩ hfirst halive others with
      ⟨haccepted, -⟩ | ⟨_, _, _, _, c, rest, rfl, _⟩
    · rw [haccepted]
      exact ⟨⟨0, done.length⟩, rfl, rfl⟩
    · exact absurd (List.prefix_nil.1 ht) (List.cons_ne_nil c rest)
  | cons c rest ih =>
    rw [scan_cons, hbegun]
    dsimp only
    have hcases := frontier_of_spells htireless ⟨done.getLast?, some c⟩ hfirst halive others
    generalize program.frontier ⟨done.getLast?, some c⟩ (first ++ others) = frontier at hcases
    have hlast : some c = (done ++ [c]).getLast? := by simp
    have hlength : done.length + 1 = (done ++ [c]).length := by simp
    rw [hlast, hlength]
    rcases hcases with ⟨haccepted, hwaiting⟩ |
      ⟨before, more, hmore, hwaiting, c', t, rfl, thread, hmem, hc, hspells⟩
    · have hbest : program.bestAfter done.length best frontier c = some ⟨0, done.length⟩ := by
        unfold bestAfter
        rw [haccepted]
        rfl
      rw [hbest]
      split
      next => exact ⟨_, rfl, rfl⟩
      next =>
        exact exists_scan_of_found rfl (Frontier.read_start hwaiting c)
    · obtain ⟨rfl, hrest⟩ := List.cons_prefix_cons.1 ht
      have hmem' : (thread.start, thread.next) ∈ before.read c' :=
        Frontier.mem_read_iff.2 ⟨thread, hmem, hc, rfl⟩
      -- its threads are read first, so at the next place they come before all others again
      have hread := Frontier.read_append hmore c'
      have hne : frontier.read c' ≠ [] := by
        rw [hread]
        exact List.append_ne_nil_of_left_ne_nil (List.ne_nil_of_mem hmem') _
      rw [if_neg (fun h => hne h.1), hread]
      obtain ⟨others', hothers⟩ := exists_begun_eq (before.read c') _
      exact ih hothers (Frontier.read_start hwaiting c') ⟨_, hmem', hspells⟩ hrest

/-- If the program accepts a text at the beginning, then the search comes to a match there. -/
theorem exists_search_of_spells (htireless : program.Tireless) {t piece : Text}
    (h : program.Spells (.jump program.start) piece) (hbegins : piece <+: t) :
    ∃ extent, program.search t = some extent ∧ extent.start = 0 := by
  have hbegun : program.begun ([] : Text).length none [] = [(0, program.start)] ++ [] := rfl
  have hfirst : ∀ thread ∈ [(0, program.start)], thread.1 = 0 :=
    List.forall_mem_singleton.2 rfl
  have halive : ∃ thread ∈ [(0, program.start)], program.Spells (.jump thread.2) piece :=
    ⟨_, List.mem_singleton_self _, h⟩
  exact exists_scan_of_spells htireless hbegun hfirst halive hbegins

end Program

end CursorGrammar
