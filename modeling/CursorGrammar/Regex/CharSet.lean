import CursorGrammar.Text
import CursorGrammar.Regex.CaseFold

set_option autoImplicit false

/-! # Sets of characters

What a set holds is all that counts: it is kept as the one ascending list of blocks for its
members, so that sets with the same members are equal. -/

namespace CursorGrammar

/-- A set of characters, as an ascending list of blocks with a gap between any two. -/
structure CharSet where
  blocks : Blocks
  deriving DecidableEq, Repr

namespace CharSet

/-- The character belongs to the set. -/
def contains (set : CharSet) (c : Char) : Bool :=
  set.blocks.contains c.toNat

/-- The set of the members of the blocks. -/
def ofBlocks (blocks : Blocks) : CharSet :=
  ⟨blocks.normal⟩

/-- The set of one code point. -/
def single (code : Nat) : CharSet :=
  ⟨[(code, code)]⟩

/-- Every character. -/
def all : CharSet := ⟨[(0, lastCode)]⟩

/-- Every character but the line feed. -/
def notLineFeed : CharSet := ⟨[(0, 9), (11, lastCode)]⟩

/-- The characters that are not in the set. -/
def complement (set : CharSet) : CharSet :=
  ⟨set.blocks.complement⟩

/-- The characters of all the sets. -/
def union (sets : List CharSet) : CharSet :=
  ofBlocks (sets.flatMap (·.blocks))

/-- The set with the case variants of its members. -/
def fold (set : CharSet) : CharSet :=
  ofBlocks set.blocks.withCaseVariants

/-- The set of a letter of ASCII in both cases, given the small one, or of any other code point
    alone. -/
def bothCases (code : Nat) : CharSet :=
  if 97 ≤ code ∧ code ≤ 122 then ⟨[(code - 32, code - 32), (code, code)]⟩ else single code

/-! ## Membership -/

theorem toNat_le_lastCode (c : Char) : c.toNat ≤ lastCode := by
  have : c.val.toNat < 0xd800 ∨ 0xdfff < c.val.toNat ∧ c.val.toNat < 0x110000 := c.valid
  simp only [Char.toNat, lastCode]
  omega

theorem contains_ofBlocks (blocks : Blocks) (c : Char) :
    (ofBlocks blocks).contains c = blocks.contains c.toNat :=
  Bool.eq_iff_iff.2 (Blocks.contains_normal blocks (toNat_le_lastCode c))

theorem contains_single (code : Nat) (c : Char) :
    (single code).contains c = true ↔ c.toNat = code := by
  rw [single, contains, Blocks.contains_iff]
  constructor
  · rintro ⟨block, hmem, hlow, hhigh⟩
    obtain rfl := List.mem_singleton.1 hmem
    exact Nat.le_antisymm hhigh hlow
  · intro h
    exact ⟨_, List.mem_singleton_self _, Nat.le_of_eq h.symm, Nat.le_of_eq h⟩

theorem contains_all (c : Char) : all.contains c = true :=
  (Blocks.contains_iff _ _).2
    ⟨_, List.mem_singleton_self _, Nat.zero_le _, toNat_le_lastCode c⟩

theorem contains_complement (set : CharSet) (c : Char) :
    set.complement.contains c = !set.contains c := by
  rw [Bool.eq_iff_iff, Bool.not_eq_true', ← Bool.not_eq_true]
  exact Blocks.contains_complement set.blocks (toNat_le_lastCode c)

end CharSet

end CursorGrammar
