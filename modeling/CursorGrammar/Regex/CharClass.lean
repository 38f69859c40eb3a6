import CursorGrammar.Regex.CharSet

set_option autoImplicit false

/-! # Classes of characters as they are written

A class lists parts: single characters, ranges, and sets that have a name. What it holds depends on
whether it is read with case variants. Then these are taken before anything is negated, so that a
negated class holds no variant of what it lists. -/

namespace CursorGrammar

/-- One part of a class: the members of its blocks, or everything else. -/
structure CharClass.Part where
  blocks : Blocks
  negated : Bool
  deriving DecidableEq, Repr

/-- A class: all that its parts hold, or everything else. -/
structure CharClass where
  parts : List CharClass.Part
  negated : Bool
  deriving DecidableEq, Repr

namespace CharClass

/-- What a part holds, with the case variants of its blocks if it is folded. -/
def Part.blocksHeld (part : Part) (folded : Bool) : Blocks :=
  let blocks := if folded then part.blocks.withCaseVariants else part.blocks
  if part.negated then blocks.complement else blocks

/-- What the class holds. -/
def members (written : CharClass) (folded : Bool) : CharSet :=
  let listed := CharSet.ofBlocks (written.parts.flatMap (·.blocksHeld folded))
  if written.negated then listed.complement else listed

/-- The class of one character. -/
def single (code : Nat) : CharClass :=
  ⟨[⟨[(code, code)], false⟩], false⟩

/-! ## Sets with a name -/

def digitBlocks : Blocks := [(0x30, 0x39)]

def wordBlocks : Blocks := [(0x30, 0x39), (0x41, 0x5a), (0x5f, 0x5f), (0x61, 0x7a)]

/-- The blanks of the class `\s`, which the vertical tab is not one of. -/
def blankBlocks : Blocks := [(9, 10), (12, 13), (32, 32)]

/-- The part that a backslash and this letter stand for; a capital letter stands for the
    complement. -/
def letterPart? : Char → Option Part
  | 'd' => some ⟨digitBlocks, false⟩
  | 'D' => some ⟨digitBlocks, true⟩
  | 's' => some ⟨blankBlocks, false⟩
  | 'S' => some ⟨blankBlocks, true⟩
  | 'w' => some ⟨wordBlocks, false⟩
  | 'W' => some ⟨wordBlocks, true⟩
  | _ => none

/-- The blocks of the sets that have a name between `[:` and `:]`. All lie in ASCII. -/
def namedBlocks : List (Text × Blocks) :=
  [(['a', 'l', 'n', 'u', 'm'], [(0x30, 0x39), (0x41, 0x5a), (0x61, 0x7a)]),
    (['a', 'l', 'p', 'h', 'a'], [(0x41, 0x5a), (0x61, 0x7a)]),
    (['a', 's', 'c', 'i', 'i'], [(0x00, 0x7f)]),
    (['b', 'l', 'a', 'n', 'k'], [(0x09, 0x09), (0x20, 0x20)]),
    (['c', 'n', 't', 'r', 'l'], [(0x00, 0x1f), (0x7f, 0x7f)]),
    (['d', 'i', 'g', 'i', 't'], digitBlocks),
    (['g', 'r', 'a', 'p', 'h'], [(0x21, 0x7e)]),
    (['l', 'o', 'w', 'e', 'r'], [(0x61, 0x7a)]),
    (['p', 'r', 'i', 'n', 't'], [(0x20, 0x7e)]),
    (['p', 'u', 'n', 'c', 't'], [(0x21, 0x2f), (0x3a, 0x40), (0x5b, 0x60), (0x7b, 0x7e)]),
    (['s', 'p', 'a', 'c', 'e'], [(0x09, 0x0d), (0x20, 0x20)]),
    (['u', 'p', 'p', 'e', 'r'], [(0x41, 0x5a)]),
    (['w', 'o', 'r', 'd'], wordBlocks),
    (['x', 'd', 'i', 'g', 'i', 't'], [(0x30, 0x39), (0x41, 0x46), (0x61, 0x66)])]

/-- The part that a name between `[:` and `:]` stands for; a `^` before the name negates it. -/
def namedPart? : Text → Option Part
  | '^' :: name => (namedBlocks.lookup name).map fun blocks => ⟨blocks, true⟩
  | name => (namedBlocks.lookup name).map fun blocks => ⟨blocks, false⟩

end CharClass

end CursorGrammar
