import CursorGrammar.Regex.Code
import CursorGrammar.Regex.Marks

set_option autoImplicit false

/-! # Blocks of steps

A search enters a place of the code once between two characters. What is such a place decides what
a loop makes of an idle round. The places are the heads of blocks: a block holds all that follows
its head by choices alone, in order of preference, up to the heads of other blocks. An instruction
is a head if something has been read, tested or passed just before it, or if it can be reached from
two blocks.

Where no loop has an idle round, nothing can be reached from itself without reading, and it makes
no difference what is a head; then every instruction is one. -/

namespace CursorGrammar

/-- One step of a block. -/
inductive Step where
  /-- The whole expression has been read. -/
  | accept
  /-- Reads one character of the set, and then goes on with the block `next`. -/
  | read (members : CharSet) (next : Nat)
  /-- Goes on with the block `next` where the condition holds. -/
  | test (assertion : Assertion) (next : Nat)
  /-- Goes on with the block `next`. -/
  | jump (next : Nat)
  deriving DecidableEq, Repr

/-- Steps to be taken one after the other, the preferred first. -/
abbrev Block := List Step

namespace Instruction

/-- The block of an instruction alone. -/
def block : Instruction → Block
  | accept => [.accept]
  | read members next => [.read members next]
  | test assertion next => [.test assertion next]
  | pass next => [.jump next]
  | choose preferred other => [.jump preferred, .jump other]

/-- What the instruction adds to a block, besides what it chooses from. -/
def ownSteps : Instruction → Block
  | choose _ _ => []
  | instruction => instruction.block

/-- The instructions to choose from. -/
def choices : Instruction → List Nat
  | choose preferred other => [preferred, other]
  | _ => []

/-- The instruction to go on with, if it is not chosen. -/
def next? : Instruction → Option Nat
  | read _ next => some next
  | test _ next => some next
  | pass next => some next
  | _ => none

end Instruction

namespace Code

/-- The instructions to choose from at a place of the code. -/
def choicesAt (code : Code) (place : Nat) : List Nat :=
  (code[place]?.map (·.choices)).getD []

/-- The places of the block that begins at `head`, in order of preference, the heads of other
    blocks included. `pending` is what is still to be looked at, and `seen` what has been. -/
def explore (code : Code) (heads : Marks) (head : Nat) : Nat → List Nat → List Nat → List Nat
  | 0, _, seen => seen.reverse
  | _, [], seen => seen.reverse
  | fuel + 1, place :: pending, seen =>
    if seen.contains place then explore code heads head fuel pending seen
    else
      let inner := if place ≠ head ∧ heads.contains place then [] else code.choicesAt place
      explore code heads head fuel (inner ++ pending) (place :: seen)

/-- The places of the block that begins at `head`, in order of preference, the heads of other
    blocks included. Every place is looked at once for each way to choose it. -/
def region (code : Code) (heads : Marks) (head : Nat) : List Nat :=
  code.explore heads head (2 * code.size + 1) [head] []

/-- The block that begins at `head`. -/
def blockAt (code : Code) (heads : Marks) (head : Nat) : Block :=
  (code.region heads head).flatMap fun place =>
    if place ≠ head ∧ heads.contains place then [.jump place]
    else (code[place]?.map (·.ownSteps)).getD []

/-! ## Heads -/

/-- For every place, the places at which it can be chosen. -/
def choosers (code : Code) : Array (List Nat) :=
  (List.range code.size).foldl (fun choosers place =>
    (code.choicesAt place).foldl (fun choosers choice => choosers.modify choice (place :: ·))
      choosers) (Array.replicate code.size [])

/-- The heads, and those places of the block that begins at `head` that can also be chosen from
    outside of it. -/
def splitRegion (code : Code) (choosers : Array (List Nat)) (heads : Marks) (head : Nat) : Marks :=
  let region := code.region heads head
  heads.insertAll (region.filter fun place => !(choosers.getD place []).all region.contains)

/-- The heads of all blocks, where the code begins at `start` and the letters that lead it end at
    `leadEnd`. First come these two and the places that something leads to without a choice; then
    each of these blocks but that at the end of the lead is split where it can be reached from
    outside. -/
def heads (code : Code) (start leadEnd : Nat) : Marks :=
  let first := (Marks.none code.size).insertAll
    (start :: leadEnd :: code.toList.filterMap (·.next?))
  let choosers := code.choosers
  ((List.range code.size).filter fun place => first.contains place && place != leadEnd).foldl
    (code.splitRegion choosers) first

/-- The blocks of the code, each at the place of its head. -/
def blocks (code : Code) (start leadEnd : Nat) : List Block :=
  let heads := code.heads start leadEnd
  (List.range code.size).map fun place =>
    if heads.contains place then code.blockAt heads place else []

end Code

end CursorGrammar
