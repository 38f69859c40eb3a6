import CursorGrammar.Regex.Block

set_option autoImplicit false

/-! # Programs

What a search needs of an expression: the blocks of its code, and where to begin. -/

namespace CursorGrammar

/-- An expression made ready for searching. -/
structure Program where
  /-- A match can begin at the beginning of the text only. -/
  anchored : Bool
  /-- The block to begin with. -/
  start : Nat
  blocks : Array Block
  /-- More steps than a search can take between two characters. -/
  effort : Nat
  deriving DecidableEq, Repr

namespace Program

/-- A program of these blocks. Between two characters each of their steps is taken once at most,
    and it leads to one jump at most. -/
def ofBlocks (anchored : Bool) (start : Nat) (blocks : List Block) : Program :=
  ⟨anchored, start, blocks.toArray,
    2 * blocks.foldl (fun total block => total + block.length) 0 + 2⟩

/-- The steps of a block. -/
def block (program : Program) (place : Nat) : Block :=
  program.blocks.getD place []

end Program

namespace Regex

/-- How an expression begins. -/
structure Opening where
  /-- It begins at the beginning of the text. -/
  anchored : Bool
  /-- The letters that must come first there. -/
  lead : Regex
  rest : Regex
  deriving DecidableEq, Repr

/-- The letters at the beginning of an expression that is to be read at the beginning of the text,
    with what follows them. That the text begins there need not be tested again. -/
def splitLetters? : Regex → Option (Regex × Regex)
  | cat (look .textBegin) rest => rest.splitLetters?
  | cat (letters folded codes) rest => some (letters folded codes, rest)
  | letters folded codes => some (letters folded codes, empty)
  | _ => none

/-- Takes the expression apart into how it begins and what follows. -/
def opening : Regex → Opening
  | cat (look .textBegin) rest =>
    match rest.splitLetters? with
    | some (lead, rest) => ⟨true, lead, rest⟩
    | none => ⟨true, empty, rest⟩
  | look .textBegin => ⟨true, empty, empty⟩
  | expr => ⟨false, empty, expr⟩

/-- Makes an expression ready for searching. -/
def program (expr : Regex) : Program :=
  let opening := expr.opening
  let route := opening.rest.coalesced.route.live?.getD .dead
  let (leadEnd, code) := route.layOut 0 #[.accept]
  let (start, code) := opening.lead.route.layOut leadEnd code
  .ofBlocks opening.anchored start
    (if route.hasIdleRound then code.blocks start leadEnd else code.toList.map (·.block))

end Regex

end CursorGrammar
