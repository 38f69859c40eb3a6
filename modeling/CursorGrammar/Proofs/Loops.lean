import CursorGrammar.Proofs.Anchoring

set_option autoImplicit false

/-! # Loops over a set of characters

A fragment such as `[0-9]+` or `[^,]*` is one loop over a set of characters. After each round the
loop may end, so that there is a match, but its thread would rather go on. So the search finds the
longest beginning of the text whose characters are all in the set. -/

namespace CursorGrammar

namespace Program

/-- The program of a loop over the set at the beginning of the text. Block 1 goes on or ends, and
    block 2 is a round. So a loop that may have no rounds begins with block 1, and a loop that has
    at least one with block 2. -/
def loop (members : CharSet) (start : Nat) : Program :=
  .ofBlocks true start [[.accept], [.jump 2, .jump 0], [.read members 1]]

variable {members : CharSet} {start index : Nat} {place : Surroundings} {best : Option Extent}
variable {before : Option Char}

/-! ## At one place -/

/-- Between two rounds the thread waits for another one, and accepts. -/
theorem frontier_loop_between (thread : Nat) :
    ((loop members start).frontier place [(thread, 1)]).waiting = [⟨thread, members, 1⟩] ∧
    ((loop members start).frontier place [(thread, 1)]).accepted = some thread :=
  ⟨rfl, rfl⟩

/-- Before the first round, if there must be one, the thread only waits. -/
theorem frontier_loop_before (thread : Nat) :
    ((loop members start).frontier place [(thread, 2)]).waiting = [⟨thread, members, 1⟩] ∧
    ((loop members start).frontier place [(thread, 2)]).accepted = none :=
  ⟨rfl, rfl⟩

theorem read_of_waiting_singleton {frontier : Frontier} {thread next : Nat}
    (h : frontier.waiting = [⟨thread, members, next⟩]) (c : Char) :
    frontier.read c = if members.contains c = true then [(thread, next)] else [] := by
  unfold Frontier.read
  rw [h]
  by_cases hc : members.contains c = true <;> simp [hc]

theorem bestAfter_of_accepted {program : Program} {frontier : Frontier} {thread : Nat}
    (h : frontier.accepted = some thread) (c : Char) :
    program.bestAfter index best frontier c = some ⟨thread, index⟩ := by
  unfold bestAfter
  rw [h]
  rfl

/-! ## Along the text -/

/-- After the beginning, threads begin no more. -/
theorem begun_loop (hindex : index ≠ 0) (pending : List Pending) :
    (loop members start).begun index best pending = pending := by
  have hanchored : (loop members start).anchored = true := rfl
  unfold begun
  rw [hanchored]
  simp [hindex]

/-- Where one thread waits for another round, the search goes on if the next character is a member,
    and otherwise it is over. -/
theorem scan_loop_cons {pending begun : List Pending} {thread : Nat} {c : Char}
    (hbegun : (loop members start).begun index best pending = begun)
    (hwaiting : ((loop members start).frontier ⟨before, some c⟩ begun).waiting
      = [⟨thread, members, 1⟩]) (rest : Text) :
    (loop members start).scan before index best pending (c :: rest) =
      let best := (loop members start).bestAfter index best
        ((loop members start).frontier ⟨before, some c⟩ begun) c
      if members.contains c = true then
        (loop members start).scan (some c) (index + 1) best [(thread, 1)] rest
      else best := by
  have hover : ∀ found : Option Extent, (found.isSome || (loop members start).anchored) = true :=
    fun _ => Bool.or_true _
  rw [scan_cons, hbegun]
  dsimp only
  rw [read_of_waiting_singleton hwaiting]
  by_cases hc : members.contains c = true
  · rw [if_pos hc, if_pos hc, if_neg (fun h => List.cons_ne_nil _ _ h.1)]
  · rw [if_neg hc, if_neg hc, if_pos ⟨rfl, hover _⟩]

/-- Between two rounds, the loop is going to take all members with which the text goes on. -/
theorem scan_loop (hindex : index ≠ 0) (thread : Nat) (t : Text) :
    (loop members start).scan before index best [(thread, 1)] t
      = some ⟨thread, index + (t.takeWhile members.contains).length⟩ := by
  induction t generalizing before index best with
  | nil =>
    rw [scan_nil, begun_loop hindex, (frontier_loop_between thread).2]
    rfl
  | cons c rest ih =>
    rw [scan_loop_cons (begun_loop hindex _) (frontier_loop_between thread).1]
    dsimp only
    rw [bestAfter_of_accepted (frontier_loop_between thread).2]
    by_cases hc : members.contains c = true
    · rw [if_pos hc, ih (Nat.succ_ne_zero index), List.takeWhile_cons_of_pos hc, List.length_cons,
        Nat.succ_add_eq_add_succ]
    · rw [if_neg hc, List.takeWhile_cons_of_neg hc]
      rfl

/-- A loop that may have no rounds reads all members with which the text begins. -/
theorem search_loop_any (members : CharSet) (t : Text) :
    (loop members 1).search t = some ⟨0, (t.takeWhile members.contains).length⟩ := by
  have hbegun : (loop members 1).begun 0 none [] = [(0, 1)] := rfl
  unfold search
  cases t with
  | nil => rfl
  | cons c rest =>
    rw [scan_loop_cons hbegun (frontier_loop_between 0).1]
    dsimp only
    rw [bestAfter_of_accepted (frontier_loop_between 0).2]
    by_cases hc : members.contains c = true
    · rw [if_pos hc, scan_loop (Nat.succ_ne_zero 0), List.takeWhile_cons_of_pos hc,
        List.length_cons, Nat.add_comm]
    · rw [if_neg hc, List.takeWhile_cons_of_neg hc]
      rfl

/-- A loop that has at least one round reads them if there are any. -/
theorem search_loop_some (members : CharSet) (t : Text) :
    (loop members 2).search t = if t.takeWhile members.contains = [] then none
      else some ⟨0, (t.takeWhile members.contains).length⟩ := by
  have hbegun : (loop members 2).begun 0 none [] = [(0, 2)] := rfl
  unfold search
  cases t with
  | nil => rfl
  | cons c rest =>
    have hinside : (loop members 2).insideMatch 0 c = none := if_pos (Or.inr rfl)
    rw [scan_loop_cons hbegun (frontier_loop_before 0).1]
    dsimp only
    by_cases hc : members.contains c = true
    · rw [if_pos hc, scan_loop (Nat.succ_ne_zero 0), List.takeWhile_cons_of_pos hc,
        if_neg (List.cons_ne_nil _ _), List.length_cons, Nat.add_comm]
    · rw [if_neg hc, List.takeWhile_cons_of_neg hc, if_pos rfl]
      unfold bestAfter
      rw [(frontier_loop_before 0).2, hinside]
      rfl

end Program

/-! ## Patterns -/

namespace Pattern

variable {p : Pattern} {members : CharSet}

theorem piece_takeWhile (test : Char → Bool) (t : Text) :
    (Extent.mk 0 (t.takeWhile test).length).piece t = t.takeWhile test :=
  (List.prefix_iff_eq_take.1 (List.takeWhile_prefix test)).symm

theorem find_of_loop_any (h : p.program = .loop members 1) (t : Text) :
    p.find t = some (t.takeWhile members.contains) := by
  unfold find
  rw [h, Program.search_loop_any, Option.map_some, piece_takeWhile]

theorem find_of_loop_some (h : p.program = .loop members 2) (t : Text) :
    p.find t = if t.takeWhile members.contains = [] then none
      else some (t.takeWhile members.contains) := by
  unfold find
  rw [h, Program.search_loop_some]
  split
  next => rfl
  next => rw [Option.map_some, piece_takeWhile]

end Pattern

end CursorGrammar
