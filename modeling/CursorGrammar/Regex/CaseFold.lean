import CursorGrammar.Text.Blocks

set_option autoImplicit false

/-! # Letters that differ in case only

The letters that simple case folding does not tell apart make up a family. The families are given
in full for the letters of ASCII and Latin-1, some of which have relatives that lie further out;
every other code point has no variant but itself. -/

namespace CursorGrammar

/-- The pairs of a capital letter of the block and the small letter 32 places on. -/
def letterPairs (first last : Nat) : List (List Nat) :=
  (List.range (last + 1 - first)).map fun i => [first + i, first + i + 32]

/-- The families of letters that differ in case only. The first six are the families of `K`, `S`,
    `µ`, `ß`, `Å` and `ÿ`, which are more than such a pair. -/
def caseFamilies : List (List Nat) :=
  [[0x4b, 0x6b, 0x212a], [0x53, 0x73, 0x17f], [0xb5, 0x39c, 0x3bc], [0xdf, 0x1e9e],
      [0xc5, 0xe5, 0x212b], [0xff, 0x178]] ++
    letterPairs 0x41 0x5a ++ letterPairs 0xc0 0xd6 ++ letterPairs 0xd8 0xde

/-- The blocks, and one for every letter that differs from some member in case only. -/
def Blocks.withCaseVariants (blocks : Blocks) : Blocks :=
  blocks ++ (caseFamilies.filter (·.any blocks.contains)).flatMap fun family =>
    family.map fun code => (code, code)

theorem Blocks.contains_withCaseVariants (blocks : Blocks) (code : Nat) :
    blocks.withCaseVariants.contains code = true ↔
      blocks.contains code = true ∨
        ∃ family ∈ caseFamilies, code ∈ family ∧
          ∃ variant ∈ family, blocks.contains variant = true := by
  rw [withCaseVariants, contains_append, Bool.or_eq_true]
  refine or_congr_right ?_
  simp only [contains_iff (List.flatMap _ _), List.mem_flatMap, List.mem_filter, List.any_eq_true,
    List.mem_map]
  constructor
  · rintro ⟨_, ⟨family, ⟨hmem, variant, hvariant, hin⟩, member, hmember, rfl⟩, hlow, hhigh⟩
    obtain rfl := Nat.le_antisymm hlow hhigh
    exact ⟨family, hmem, hmember, variant, hvariant, hin⟩
  · rintro ⟨family, hmem, hcode, variant, hvariant, hin⟩
    exact ⟨_, ⟨family, ⟨hmem, variant, hvariant, hin⟩, code, hcode, rfl⟩, Nat.le_refl _,
      Nat.le_refl _⟩

end CursorGrammar
