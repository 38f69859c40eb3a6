import CursorGrammar.Regex.Basic

set_option autoImplicit false

/-! # Branches with a common beginning

Neighbouring branches that begin alike are written as their common beginning and the branches of
what follows it. No text is read in another way for it, and the order of preference is kept; but
the beginning is read once for all of them, and a loop around the branches has fewer places at
which its rounds can begin.

Common are, in this order: letters, then a whole first piece that is a condition, a single
character or a fixed number of characters; and branches of single characters become one set. -/

namespace CursorGrammar

/-! ## Runs -/

/-- Cuts a list into runs of neighbours. Each run has a key; an item joins the run before it if
    `join` finds a key for both. -/
def runs {α κ : Type} (key : α → κ) (join : κ → κ → Option κ) (items : List α) :
    List (κ × List α) :=
  (items.foldl (fun done item =>
    match done with
    | [] => [(key item, [item])]
    | (common, members) :: earlier =>
      match join common (key item) with
      | some common => (common, item :: members) :: earlier
      | none => (key item, [item]) :: done) []).reverse.map fun run => (run.1, run.2.reverse)

/-- The longest list that both lists begin with. -/
def commonBeginning : List Nat → List Nat → List Nat
  | a :: rest, b :: rest' => if a = b then a :: commonBeginning rest rest' else []
  | _, _ => []

namespace Regex

/-! ## How an expression begins -/

/-- The number of parts of an expression, letters counted one by one. -/
def weight : Regex → Nat
  | letters _ codes => codes.length + 1
  | group body => body.weight + 1
  | cat first second => first.weight + second.weight + 1
  | alt preferred other => preferred.weight + other.weight + 1
  | loop _ _ body => body.weight + 1
  | count _ _ _ body => body.weight + 1
  | _ => 1

/-- The letters at the beginning, and whether they are folded. -/
def firstLetters? : Regex → Option (Bool × List Nat)
  | letters folded codes => some (folded, codes)
  | cat first _ => first.firstLetters?
  | _ => none

/-- The expression without so many letters of its beginning. -/
def dropLetters (n : Nat) : Regex → Regex
  | letters folded codes => ofLetters folded (codes.drop n)
  | cat first second =>
    match first.dropLetters n with
    | empty => second
    | first => cat first second
  | expr => expr

/-- The first piece, unless nothing is read there. -/
def firstPiece? : Regex → Option Regex
  | empty => none
  | cat empty _ => none
  | cat first _ => some first
  | expr => some expr

/-- What follows the first piece. -/
def dropPiece : Regex → Regex
  | cat _ second => second
  | _ => empty

/-- The piece reads one character, whichever it is. -/
def isCharacter : Regex → Bool
  | letters _ [_] => true
  | set _ => true
  | any => true
  | _ => false

/-- The piece is one that branches are taken together for. -/
def isShared : Regex → Bool
  | look _ => true
  | set _ => true
  | any => true
  | count least most _ body => most == some least && body.isCharacter
  | _ => false

/-- The pieces are the same, flags apart that do not matter any more. -/
def samePiece : Regex → Regex → Bool
  | count least most flags body, count least' most' flags' body' =>
    least == least' && most == most' && flags.lazy == flags'.lazy && body == body'
  | piece, piece' => piece == piece'

/-! ## What neighbouring branches share -/

/-- The letters that two beginnings share, if there are any. -/
def shareLetters : Option (Bool × List Nat) → Option (Bool × List Nat) →
    Option (Option (Bool × List Nat))
  | some (folded, codes), some (folded', codes') =>
    if folded = folded' then
      match commonBeginning codes codes' with
      | [] => none
      | common => some (some (folded, common))
    else none
  | _, _ => none

/-- The first piece that two branches share, if it is one that they are taken together for. -/
def sharePiece : Option Regex → Option Regex → Option (Option Regex)
  | some piece, some piece' =>
    if piece.isShared && samePiece piece piece' then some (some piece) else none
  | _, _ => none

/-- Two branches share that each is a single character of a set. -/
def shareSet : Option CharSet → Option CharSet → Option (Option CharSet)
  | some members, some _ => some (some members)
  | _, _ => none

/-! ## Factoring -/

/-- The branches, with common beginnings taken out. The recursion goes by the weight of the
    branches: those of what follows a common beginning weigh less. -/
def factor : Nat → List Regex → List Regex
  | 0, branches => branches
  | fuel + 1, branches =>
    let byLetters := (runs firstLetters? shareLetters branches).map fun
      | (_, [branch]) => branch
      | (some (folded, codes), members) =>
        cat (letters folded codes)
          (choose (factor fuel (members.map (·.dropLetters codes.length))))
      | (none, members) => choose members
    let byPiece := (runs firstPiece? sharePiece byLetters).map fun
      | (_, [branch]) => branch
      | (some piece, members) => cat piece (choose (factor fuel (members.map dropPiece)))
      | (none, members) => choose members
    (runs character? shareSet byPiece).map fun
      | (_, [branch]) => branch
      | (_, members) => set (.union (members.filterMap character?))

/-- Where a branch reads any one character, the branch beside it that reads one character of some
    kind is left out. -/
def absorb (branches : List Regex) : List Regex :=
  (branches.foldl (fun done branch =>
    match done with
    | [] => [branch]
    | last :: earlier =>
      if last == any && branch.isCharacter then done
      else if branch == any && last.isCharacter then branch :: earlier
      else branch :: done) []).reverse

/-- Reads the first branch, or else one of the others, in order. Branches of a branch count as
    branches themselves. -/
def alternation (exprs : List Regex) : Regex :=
  match absorb exprs with
  | [expr] => expr
  | exprs =>
    let all := exprs.flatMap branches
    choose (factor (all.foldl (fun total branch => total + branch.weight) 0) all)

end Regex

end CursorGrammar
