import CursorGrammar.Regex.Coalescing

set_option autoImplicit false

/-! # Routes

A route says step by step what an expression asks for. Bounds are spelled out: so many copies of
the body, and then a loop or optional copies, each inside the one before. -/

namespace CursorGrammar

/-- The steps of an expression, without bounds that are numbers. -/
inductive Route where
  /-- Does nothing. -/
  | empty
  /-- Reads one character of the set. -/
  | read (members : CharSet)
  /-- Goes on where the condition holds. -/
  | test (assertion : Assertion)
  /-- Takes the body as a group. -/
  | group (body : Route)
  /-- Takes the one and then the other. -/
  | cat (first second : Route)
  /-- Takes the one, or else the other. -/
  | alt (preferred other : Route)
  /-- Takes the body again and again. -/
  | loop (rounds : Rounds) (flags : Flags) (body : Route)
  deriving DecidableEq, Repr

namespace Route

/-- The route can be taken without reading, the conditions on it apart. -/
def nullable : Route → Bool
  | empty => true
  | read _ => false
  | test _ => true
  | group body => body.nullable
  | cat first second => first.nullable && second.nullable
  | alt preferred other => preferred.nullable || other.nullable
  | loop .oneOrMore _ body => body.nullable
  | loop _ _ _ => true

/-- Some loop of the route has a round that can be taken without reading. -/
def hasIdleRound : Route → Bool
  | group body => body.hasIdleRound
  | cat first second => first.hasIdleRound || second.hasIdleRound
  | alt preferred other => preferred.hasIdleRound || other.hasIdleRound
  | loop .zeroOrOne _ body => body.hasIdleRound
  | loop _ _ body => body.nullable || body.hasIdleRound
  | _ => false

/-- A loop around a route. A loop around another one with the same flags is no new loop: it is the
    same again, or any number of rounds. -/
def repeated (rounds : Rounds) (flags : Flags) : Route → Route
  | loop inner innerFlags body =>
    if innerFlags = flags then
      if inner = rounds then loop inner flags body else loop .zeroOrMore flags body
    else loop rounds flags (loop inner innerFlags body)
  | body => loop rounds flags body

/-- The body so many times. -/
def copies (body : Route) : Nat → Route
  | 0 => empty
  | 1 => body
  | n + 1 => cat body (copies body n)

/-- The body at most so many times. -/
def upTo (flags : Flags) (body : Route) : Nat → Route
  | 0 => empty
  | 1 => repeated .zeroOrOne flags body
  | n + 1 => repeated .zeroOrOne flags (cat body (upTo flags body n))

/-- The body at least `least` times, and at most `most` times, if that is given. -/
def between (least : Nat) (most : Option Nat) (flags : Flags) (body : Route) : Route :=
  match least, most with
  | 0, none => repeated .zeroOrMore flags body
  | 1, none => repeated .oneOrMore flags body
  | least + 1, none => cat (copies body least) (repeated .oneOrMore flags body)
  | 0, some most => upTo flags body most
  | least, some most =>
    if most ≤ least then copies body least
    else cat (copies body least) (upTo flags body (most - least))

/-- Never goes on. -/
def dead : Route := read ⟨[]⟩

/-- The route without the parts at which it cannot go on, because they read a character of an
    empty set; nothing is left if there is no other way. A loop of any number of such rounds is
    still a place to choose at, although there is one way only. -/
def live? : Route → Option Route
  | read members => if members.blocks = [] then none else some (read members)
  | group body => body.live?.map group
  | cat first second =>
    match first.live?, second.live? with
    | some first, some second => some (cat first second)
    | _, _ => none
  | alt preferred other =>
    match preferred.live?, other.live? with
    | some preferred, some other => some (alt preferred other)
    | some route, none => some route
    | none, rest => rest
  | loop rounds flags body =>
    match body.live?, rounds with
    | some body, _ => some (loop rounds flags body)
    | none, .zeroOrMore => some (alt empty empty)
    | none, .oneOrMore => none
    | none, .zeroOrOne => some empty
  | route => some route

end Route

namespace Regex

/-- The route of letters, one after the other. -/
def routeOfLetters (folded : Bool) : List Nat → Route
  | [] => .empty
  | [code] => .read (if folded then .bothCases code else .single code)
  | code :: codes =>
    .cat (.read (if folded then .bothCases code else .single code)) (routeOfLetters folded codes)

/-- The route of an expression. A loop whose body does nothing does nothing, and one whose body is
    the same loop is that loop. -/
def route : Regex → Route
  | empty => .empty
  | letters folded codes => routeOfLetters folded codes
  | set members => .read members
  | any => .read .all
  | look assertion => .test assertion
  | group body => .group body.route
  | cat first second => .cat first.route second.route
  | alt preferred other => .alt preferred.route other.route
  | loop rounds flags body =>
    match body.route with
    | .empty => .empty
    | .loop inner innerFlags innerBody =>
      if inner = rounds ∧ innerFlags = flags then .loop inner flags innerBody
      else .loop rounds flags (.loop inner innerFlags innerBody)
    | body => .loop rounds flags body
  | count least most flags body =>
    match body.route with
    | .empty => .empty
    | body => .between least most flags body

end Regex

end CursorGrammar
