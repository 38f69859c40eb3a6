import CursorGrammar.Regex.Basic

set_option autoImplicit false

/-! # Repetitions of a character beside each other

A repetition of one character, followed by a repetition of the same character or by the character
itself, is one repetition: the bounds add up. Both must be lazy, or neither. -/

namespace CursorGrammar

namespace Regex

/-- The bounds, flags and body of a repetition. -/
def repetition? : Regex → Option (Nat × Option Nat × Flags × Regex)
  | loop .zeroOrMore flags body => some (0, none, flags, body)
  | loop .oneOrMore flags body => some (1, none, flags, body)
  | loop .zeroOrOne flags body => some (0, some 1, flags, body)
  | count least most flags body => some (least, most, flags, body)
  | _ => none

/-- The bounds that two repetitions have together, of which the first is bounded by `most`. -/
def addMost : Option Nat → Option Nat → Option Nat
  | some most, some more => some (most + more)
  | _, _ => none

/-- How often the body of a repetition, which is one character, follows at the beginning of an
    expression: at least and at most, with what comes after that. -/
def more? (flags : Flags) (body next : Regex) : Option (Nat × Option Nat × Option Regex) :=
  match repetition? next with
  | some (least, most, nextFlags, nextBody) =>
    if nextBody = body ∧ nextFlags.lazy = flags.lazy then some (least, most, none) else none
  | none =>
    if next = body then some (1, some 1, none)
    else match body, next with
      | letters folded [code], letters nextFolded codes =>
        let same := (codes.takeWhile (· == code)).length
        if nextFolded = folded ∧ 0 < same then
          some (same, some same,
            if same = codes.length then none else some (letters folded (codes.drop same)))
        else none
      | _, _ => none

/-- A piece and the one after it as one repetition, with what remains of the latter. -/
def coalesce? (piece next : Regex) : Option (Regex × Option Regex) :=
  match repetition? piece with
  | none => none
  | some (least, most, flags, body) =>
    match body with
    | letters _ [_] | set _ | any =>
      (more? flags body next).map fun (more, atMost, remainder) =>
        (count (least + more) (addMost most atMost) flags body, remainder)
    | _ => none

/-- A piece before a sequence. -/
def coalesceInto (piece : Regex) : Regex → Regex
  | cat next rest =>
    match coalesce? piece next with
    | some (piece, none) => coalesceInto piece rest
    | some (piece, some next) => cat piece (cat next rest)
    | none => cat piece (cat next rest)
  | next =>
    match coalesce? piece next with
    | some (piece, none) => piece
    | some (piece, some next) => cat piece next
    | none => cat piece next

/-- The expression with such repetitions taken together everywhere in it. -/
def coalesced : Regex → Regex
  | group body => group body.coalesced
  | cat first second => coalesceInto first.coalesced second.coalesced
  | alt preferred other => alt preferred.coalesced other.coalesced
  | loop rounds flags body => loop rounds flags body.coalesced
  | count least most flags body => count least most flags body.coalesced
  | expr => expr

end Regex

end CursorGrammar
