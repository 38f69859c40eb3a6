import CursorGrammar.Regex.CharClass
import CursorGrammar.Regex.Program

set_option autoImplicit false

/-! # Searching a text

A text is searched by reading it once, from left to right, with all ways through the program
followed side by side. A way is a thread: it waits for a character of a set, and knows the block
with which it goes on after it. Threads are kept in order of preference, and a block is entered
once between two characters, by the most preferred thread that reaches it. So a search takes the
first choice that leads to a match, among the matches that begin leftmost, in time proportional to
the length of the text. -/

namespace CursorGrammar

/-! ## Between two characters -/

/-- The characters before and after a place of a text. -/
structure Surroundings where
  before : Option Char
  after : Option Char

namespace Surroundings

/-- Letters, digits and the underscore of ASCII make up words. -/
def isWord : Option Char → Bool
  | none => false
  | some c => CharClass.wordBlocks.contains c.toNat

/-- A character of more than one byte has places in its middle, where its own bytes are on both
    sides. -/
def inside (c : Char) : Surroundings := ⟨some c, some c⟩

/-- The place is one between a word and something else. -/
def atWordEdge (place : Surroundings) : Bool :=
  isWord place.before != isWord place.after

end Surroundings

/-- The condition holds at the place. -/
def Assertion.holds (place : Surroundings) : Assertion → Bool
  | textBegin => place.before.isNone
  | textEnd => place.after.isNone
  | lineBegin => place.before.isNone || place.before == some '\n'
  | lineEnd => place.after.isNone || place.after == some '\n'
  | wordEdge => place.atWordEdge
  | notWordEdge => !place.atWordEdge

/-! ## Threads -/

/-- A way through the program that began at `start`, and that reads a character of the set before
    it goes on with the block `next`. -/
structure Thread where
  start : Nat
  members : CharSet
  next : Nat

/-- What has been found out at one place of the text. -/
structure Frontier where
  /-- The blocks that have been entered. -/
  entered : Marks
  /-- The threads that wait for the next character, the least preferred first. -/
  waiting : List Thread
  /-- Where the match begins that ends here. Threads that are less preferred than it are not
      followed. -/
  accepted : Option Nat

namespace Frontier

/-- Nothing has been found out yet; there are so many blocks. -/
def new (blocks : Nat) : Frontier := ⟨.none blocks, [], none⟩

/-- Lets a thread wait for the next character. -/
def wait (frontier : Frontier) (thread : Thread) : Frontier :=
  { frontier with waiting := thread :: frontier.waiting }

/-- Notes that a block has been entered. -/
def enter (frontier : Frontier) (block : Nat) : Frontier :=
  { frontier with entered := frontier.entered.insert block }

/-- The threads that can read the character, the most preferred first: where they began, and the
    block with which they go on. -/
def read (frontier : Frontier) (c : Char) : List (Nat × Nat) :=
  (frontier.waiting.filter (·.members.contains c)).reverse.map fun thread =>
    (thread.start, thread.next)

end Frontier

/-! ## Following the program -/

namespace Program

/-- Takes the steps of a thread up to the characters it can read next, at a place between two
    characters. What a step leads to comes before the steps after it, and nothing comes after a
    match. -/
def follow (program : Program) (place : Surroundings) (start : Nat) :
    Nat → Block → Frontier → Frontier
  | 0, _, frontier => frontier
  | _, [], frontier => frontier
  | fuel + 1, step :: steps, frontier =>
    match step with
    | .accept => { frontier with accepted := some start }
    | .read members next =>
      follow program place start fuel steps (frontier.wait ⟨start, members, next⟩)
    | .test assertion next =>
      follow program place start fuel (if assertion.holds place then .jump next :: steps else steps)
        frontier
    | .jump next =>
      if frontier.entered.contains next then follow program place start fuel steps frontier
      else follow program place start fuel (program.block next ++ steps) (frontier.enter next)

/-- A thread that goes on at the next place: where it began, and the block with which it goes
    on. -/
abbrev Pending := Nat × Nat

/-- The frontier at a place that the pending threads reach, the most preferred first. -/
def frontier (program : Program) (place : Surroundings) (pending : List Pending) : Frontier :=
  pending.foldl (fun frontier thread =>
    if frontier.accepted.isSome then frontier
    else program.follow place thread.1 program.effort [.jump thread.2] frontier)
    (.new program.blocks.size)

end Program

/-! ## Reading the text -/

/-- Where a match begins and ends. -/
structure Extent where
  start : Nat
  stop : Nat
  deriving DecidableEq, Repr

/-- The piece of the text that the extent covers. -/
def Extent.piece (extent : Extent) (t : Text) : Text :=
  (t.drop extent.start).take (extent.stop - extent.start)

namespace Program

/-- The pending threads at a place, with a new one at the end unless a match is known. A new one
    is of no use after the beginning if only the beginning can begin a match. -/
def begun (program : Program) (index : Nat) (best : Option Extent) (pending : List Pending) :
    List Pending :=
  if best.isNone && (index == 0 || !program.anchored) then pending ++ [(index, program.start)]
  else pending

/-- The empty match in the middle of a character of more than one byte, if there is one. It is
    less preferred than all matches that begin before. -/
def insideMatch (program : Program) (index : Nat) (c : Char) : Option Extent :=
  if c.utf8Size = 1 ∨ program.anchored then none
  else (program.frontier (.inside c) [(index, program.start)]).accepted.map fun _ =>
    ⟨index, index⟩

/-- Reads the text from the place `index` on, `before` being the character before it. `best` is
    the match so far, which every pending thread would be preferred to. -/
def scan (program : Program) (before : Option Char) (index : Nat) (best : Option Extent)
    (pending : List Pending) : Text → Option Extent
  | [] =>
    match (program.frontier ⟨before, none⟩ (program.begun index best pending)).accepted with
    | some start => some ⟨start, index⟩
    | none => best
  | c :: rest =>
    let frontier := program.frontier ⟨before, some c⟩ (program.begun index best pending)
    let best := match frontier.accepted with
      | some start => some ⟨start, index⟩
      | none => best
    let best := match best with
      | some found => some found
      | none => program.insideMatch index c
    match frontier.read c with
    | [] =>
      if best.isSome || program.anchored then best
      else scan program (some c) (index + 1) best [] rest
    | pending => scan program (some c) (index + 1) best pending rest

/-- Where the preferred match of the program lies in the text, among those that begin leftmost. -/
def search (program : Program) (t : Text) : Option Extent :=
  program.scan none 0 none [] t

end Program

end CursorGrammar
