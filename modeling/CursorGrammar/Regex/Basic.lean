import CursorGrammar.Regex.CharSet

set_option autoImplicit false

/-! # Regular expressions

An expression describes how a text is read from left to right, with the choices in order of
preference: the left branch before the right, and a loop goes on rather than ends unless it is
lazy. What a group has read is not kept, because only the extent of a match is asked for.

Sequences are kept nested to the right, so that the first piece is at hand, and branches to the
left. -/

namespace CursorGrammar

/-- A condition on the place between two characters. -/
inductive Assertion where
  | textBegin
  | textEnd
  | lineBegin
  | lineEnd
  | wordEdge
  | notWordEdge
  deriving DecidableEq, Repr

/-- The flags that hold at some place of an expression. -/
structure Flags where
  /-- Letters stand for their case variants too. -/
  fold : Bool := false
  /-- `^` and `$` hold at every line. -/
  lines : Bool := false
  /-- The dot stands for the line feed too. -/
  dotAll : Bool := false
  /-- A repetition ends rather than goes on. -/
  lazy : Bool := false
  deriving DecidableEq, Repr

/-- How many rounds a loop can have. -/
inductive Rounds where
  | zeroOrMore
  | oneOrMore
  | zeroOrOne
  deriving DecidableEq, Repr

/-- A regular expression. Repetitions keep the flags of the place at which they are written, with
    their own laziness. -/
inductive Regex where
  /-- Reads nothing. -/
  | empty
  /-- Reads these letters, in either case if folded. -/
  | letters (folded : Bool) (codes : List Nat)
  /-- Reads one character of the set. -/
  | set (members : CharSet)
  /-- Reads any one character. -/
  | any
  /-- Reads nothing, where the condition holds. -/
  | look (assertion : Assertion)
  /-- Reads the body, as a group of its own. -/
  | group (body : Regex)
  /-- Reads the one and then the other. -/
  | cat (first second : Regex)
  /-- Reads the one, or else the other. -/
  | alt (preferred other : Regex)
  /-- Reads the body again and again. -/
  | loop (rounds : Rounds) (flags : Flags) (body : Regex)
  /-- Reads the body at least `least` times, and at most `most` times, if that is given. -/
  | count (least : Nat) (most : Option Nat) (flags : Flags) (body : Regex)
  deriving DecidableEq, Repr

namespace Regex

/-! ## Characters -/

/-- Reads letters, if there are any. -/
def ofLetters (folded : Bool) : List Nat → Regex
  | [] => empty
  | codes => letters folded codes

/-- Reads one character of the set, which is a letter if the set holds nothing else, or nothing
    but its other case. -/
def ofSet (folded : Bool) (members : CharSet) : Regex :=
  match members.blocks with
  | [(low, high)] => if low = high then letters folded [low] else set members
  | [(capital, low), (small, high)] =>
    if capital = low ∧ small = high ∧ 65 ≤ capital ∧ capital ≤ 90 ∧ small = capital + 32 then
      letters true [small]
    else set members
  | _ => set members

/-- The set that the expression reads one character of, if that is all it does. As a member of a
    set a folded letter brings all its case variants along, and not only its other case in ASCII. -/
def character? : Regex → Option CharSet
  | letters folded [code] => some (if folded then (CharSet.single code).fold else .single code)
  | set members => some members
  | _ => none

/-! ## Sequences -/

/-- The one expression and then the other. -/
def andThen : Regex → Regex → Regex
  | cat first second, rest => cat first (second.andThen rest)
  | first, rest => cat first rest

/-- The expressions one after the other. -/
def concat : List Regex → Regex
  | [] => empty
  | [expr] => expr
  | expr :: rest => expr.andThen (concat rest)

/-- The expressions, where letters that follow each other are taken together. -/
def joinLetters : List Regex → List Regex
  | [] => []
  | letters folded codes :: rest =>
    match joinLetters rest with
    | letters folded' codes' :: rest =>
      if folded = folded' then letters folded (codes ++ codes') :: rest
      else letters folded codes :: letters folded' codes' :: rest
    | rest => letters folded codes :: rest
  | expr :: rest => expr :: joinLetters rest

/-! ## Branches -/

/-- The branches of an expression, in order of preference. -/
def branches : Regex → List Regex
  | alt preferred other => preferred.branches ++ other.branches
  | expr => [expr]

/-- The first expression, or else one of the others, in order. -/
def choose : List Regex → Regex
  | [] => empty
  | expr :: rest => rest.foldl alt expr

/-! ## Loops -/

/-- A loop around an expression. A loop around another one with the same flags is no new loop: it
    is the same again, or any number of rounds. -/
def repeated (rounds : Rounds) (flags : Flags) : Regex → Regex
  | loop inner innerFlags body =>
    if innerFlags = flags then
      if inner = rounds then loop inner flags body else loop .zeroOrMore flags body
    else loop rounds flags (loop inner innerFlags body)
  | body => loop rounds flags body

end Regex

end CursorGrammar
