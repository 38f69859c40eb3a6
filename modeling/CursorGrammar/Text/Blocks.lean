set_option autoImplicit false

/-! # Blocks of code points

A set of code points, given as a list of blocks, each by its first and its last member. The code
points of all texts are covered, and so are those that no character of a text can have. -/

namespace CursorGrammar

/-- The largest code point. -/
def lastCode : Nat := 0x10ffff

/-- Blocks of code points, each with its first and its last member. -/
abbrev Blocks := List (Nat × Nat)

namespace Blocks

/-- Some block holds the code point. -/
def contains (blocks : Blocks) (code : Nat) : Bool :=
  blocks.any fun block => block.1 ≤ code && code ≤ block.2

/-- The blocks follow each other in ascending order, with a gap between any two. -/
def ascending : Blocks → Bool
  | [] => true
  | [block] => block.1 ≤ block.2
  | block :: next :: rest =>
    block.1 ≤ block.2 && block.2 + 1 < next.1 && ascending (next :: rest)

/-- The blocks without the members of one block. -/
def remove (blocks : Blocks) (block : Nat × Nat) : Blocks :=
  blocks.flatMap fun (low, high) =>
    (if low < block.1 then [(low, min high (block.1 - 1))] else []) ++
      (if block.2 < high then [(max low (block.2 + 1), high)] else [])

/-- The code points that are in none of the blocks. -/
def complement (blocks : Blocks) : Blocks :=
  blocks.foldl remove [(0, lastCode)]

/-- The one ascending list of blocks for the members of the blocks. -/
def normal (blocks : Blocks) : Blocks :=
  blocks.complement.complement

/-! ## Membership -/

theorem contains_iff (blocks : Blocks) (code : Nat) :
    blocks.contains code = true ↔ ∃ block ∈ blocks, block.1 ≤ code ∧ code ≤ block.2 := by
  simp [contains]

theorem contains_append (left right : Blocks) (code : Nat) :
    contains (left ++ right) code = (contains left code || contains right code) := by
  simp [contains]

theorem contains_remove (blocks : Blocks) (block : Nat × Nat) (code : Nat) :
    (blocks.remove block).contains code = true ↔
      blocks.contains code = true ∧ ¬(block.1 ≤ code ∧ code ≤ block.2) := by
  simp only [contains_iff, remove, List.mem_flatMap, List.mem_append]
  constructor
  · rintro ⟨part, ⟨⟨low, high⟩, hmem, hpart⟩, hlow, hhigh⟩
    rcases hpart with hpart | hpart
    · split at hpart
      next hlt =>
        obtain rfl := List.mem_singleton.1 hpart
        dsimp only at hlow hhigh hlt
        exact ⟨⟨_, hmem, hlow, by dsimp only; omega⟩, by omega⟩
      next => exact absurd hpart (List.not_mem_nil)
    · split at hpart
      next hlt =>
        obtain rfl := List.mem_singleton.1 hpart
        dsimp only at hlow hhigh hlt
        exact ⟨⟨_, hmem, by dsimp only; omega, hhigh⟩, by omega⟩
      next => exact absurd hpart (List.not_mem_nil)
  · rintro ⟨⟨⟨low, high⟩, hmem, hlow, hhigh⟩, hout⟩
    dsimp only at hlow hhigh
    by_cases hbelow : code < block.1
    · refine ⟨(low, min high (block.1 - 1)), ⟨_, hmem, .inl ?_⟩, hlow, by dsimp only; omega⟩
      rw [if_pos (by dsimp only; omega)]
      exact List.mem_singleton_self _
    · refine ⟨(max low (block.2 + 1), high), ⟨_, hmem, .inr ?_⟩, by dsimp only; omega, hhigh⟩
      rw [if_pos (by dsimp only; omega)]
      exact List.mem_singleton_self _

theorem contains_foldl_remove (removed blocks : Blocks) (code : Nat) :
    (removed.foldl remove blocks).contains code = true ↔
      blocks.contains code = true ∧ ¬removed.contains code = true := by
  induction removed generalizing blocks with
  | nil => simp [contains]
  | cons block rest ih =>
    rw [List.foldl_cons, ih, contains_remove, contains_iff (block :: rest), contains_iff rest]
    simp only [List.mem_cons, exists_eq_or_imp, not_or, and_assoc]

theorem contains_complement (blocks : Blocks) {code : Nat} (h : code ≤ lastCode) :
    blocks.complement.contains code = true ↔ ¬blocks.contains code = true := by
  rw [complement, contains_foldl_remove]
  constructor
  · exact fun hmem => hmem.2
  · exact fun hmem => ⟨(contains_iff _ _).2 ⟨_, List.mem_singleton_self _, Nat.zero_le _, h⟩, hmem⟩

theorem contains_normal (blocks : Blocks) {code : Nat} (h : code ≤ lastCode) :
    blocks.normal.contains code = true ↔ blocks.contains code = true := by
  rw [normal, contains_complement _ h, contains_complement _ h, Bool.not_eq_true,
    Bool.not_eq_false]

end Blocks

end CursorGrammar
