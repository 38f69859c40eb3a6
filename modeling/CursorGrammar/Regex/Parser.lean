import CursorGrammar.Regex.Factoring
import CursorGrammar.Regex.Token

set_option autoImplicit false

/-! # Reading a regular expression

The tokens of an expression are taken one by one. What has been read so far is kept as the groups
that are still open, each with its finished branches and with the pieces of the branch at which it
stands. A repetition applies to the last of those pieces. -/

namespace CursorGrammar

/-! ## Flags -/

/-- The flags after one has been changed. -/
def Flags.put (flags : Flags) : Flag × Bool → Flags
  | (.fold, value) => { flags with fold := value }
  | (.lines, value) => { flags with lines := value }
  | (.dotAll, value) => { flags with dotAll := value }
  | (.lazy, value) => { flags with lazy := value }

/-! ## What has been read -/

/-- A finished piece of an expression. -/
structure Piece where
  expr : Regex
  /-- The largest product of the counts of repetitions that stand one inside the other. -/
  repeats : Nat
  deriving DecidableEq, Repr

/-- A group while it is read. -/
structure OpenGroup where
  /-- The finished branches, the latest first. -/
  branches : List Piece
  /-- The pieces of the branch that is being read, the latest first. -/
  pieces : List Piece
  deriving DecidableEq, Repr

/-- Everything that has been read of an expression. -/
structure Draft where
  /-- The groups around the innermost one, the inner first, each with the flags that hold again
      after the group inside it, and with whether that one captures what it reads. -/
  outer : List (OpenGroup × Flags × Bool)
  group : OpenGroup
  flags : Flags
  /-- What was written of the repetition just before, or nothing if there is none. -/
  lastRepetition : Text
  deriving DecidableEq, Repr

namespace OpenGroup

/-- A group of which nothing has been read. -/
def new : OpenGroup := ⟨[], []⟩

/-- The branch that is being read, as one piece. -/
def branch (group : OpenGroup) : Piece :=
  ⟨.concat (Regex.joinLetters (group.pieces.reverse.map (·.expr))),
    (group.pieces.map (·.repeats)).foldl max 1⟩

/-- The group with its branch finished, and a new one begun. -/
def nextBranch (group : OpenGroup) : OpenGroup :=
  ⟨group.branch :: group.branches, []⟩

/-- The whole group as one piece. -/
def close (group : OpenGroup) : Piece :=
  let branches := (group.branch :: group.branches).reverse
  ⟨.alternation (branches.map (·.expr)), (branches.map (·.repeats)).foldl max 1⟩

end OpenGroup

namespace Draft

/-- Nothing has been read. -/
def new : Draft := ⟨[], .new, {}, []⟩

/-- Adds a piece to the branch that is being read. -/
def push (draft : Draft) (piece : Piece) : Draft :=
  { draft with
    group := { draft.group with pieces := piece :: draft.group.pieces }
    lastRepetition := [] }

/-- Adds an expression without counted repetitions. -/
def pushExpr (draft : Draft) (expr : Regex) : Draft :=
  draft.push ⟨expr, 1⟩

/-! ## Repetitions -/

/-- The largest number that a bound, or a product of bounds, may be. -/
def repeatLimit : Nat := 1000

/-- A written count is within the limit and not inverted. -/
def sizeAllowed (times : Repetition) : Bool :=
  times.least ≤ repeatLimit &&
    match times.most with
    | none => true
    | some most => times.least ≤ most && most ≤ repeatLimit

/-- What a repetition multiplies the count of its piece by. -/
def factor (times : Repetition) : Nat :=
  if times.counted then max 1 (times.most.getD times.least) else 1

/-- The repetition of an expression at a place with these flags. -/
def repeatedBy (times : Repetition) (flags : Flags) (expr : Regex) : Regex :=
  let flags := { flags with lazy := flags.lazy != times.marked }
  if times.counted then .count times.least times.most flags expr
  else if times.most.isSome then .repeated .zeroOrOne flags expr
  else if times.least = 0 then .repeated .zeroOrMore flags expr
  else .repeated .oneOrMore flags expr

/-- Applies a repetition to the last piece. It must not follow another repetition, its size must
    be allowed, and there must be a piece; the first of these that fails is the error. -/
def applyRepetition (draft : Draft) (times : Repetition) : Except SyntaxError Draft :=
  if draft.lastRepetition ≠ [] then
    .error (.stackedRepetition (draft.lastRepetition ++ times.written))
  else if times.counted && !sizeAllowed times then .error (.repetitionSize times.written)
  else match draft.group.pieces with
    | [] => .error (.missingArgument times.written)
    | piece :: pieces =>
      let repeats := piece.repeats * factor times
      if times.counted && repeatLimit < repeats then .error (.repetitionSize times.written)
      else
        let expr := repeatedBy times draft.flags piece.expr
        .ok { draft with
          group := { draft.group with pieces := ⟨expr, repeats⟩ :: pieces }
          lastRepetition := times.written }

/-! ## One token -/

/-- Takes one token. `whole` is the whole expression, which an error about parentheses names. -/
def take (whole : Text) (draft : Draft) : Token → Except SyntaxError Draft
  | .set written =>
    .ok (draft.pushExpr (.ofSet draft.flags.fold (written.members draft.flags.fold)))
  | .dot => .ok (draft.pushExpr (if draft.flags.dotAll then .any else .set .notLineFeed))
  | .caret => .ok (draft.pushExpr (.look (if draft.flags.lines then .lineBegin else .textBegin)))
  | .dollar => .ok (draft.pushExpr (.look (if draft.flags.lines then .lineEnd else .textEnd)))
  | .look assertion => .ok (draft.pushExpr (.look assertion))
  | .bar => .ok { draft with group := draft.group.nextBranch, lastRepetition := [] }
  | .openGroup captures changes =>
    .ok ⟨(draft.group, draft.flags, captures) :: draft.outer, .new,
      changes.foldl Flags.put draft.flags, []⟩
  | .closeGroup =>
    match draft.outer with
    | [] => .error (.unexpectedParenthesis whole)
    | (group, flags, captures) :: outer =>
      let closed := draft.group.close
      .ok (push ⟨outer, group, flags, []⟩
        (if captures then { closed with expr := .group closed.expr } else closed))
  | .flags changes =>
    .ok { draft with flags := changes.foldl Flags.put draft.flags, lastRepetition := [] }
  | .repetition times => draft.applyRepetition times
  | .nothing => .ok { draft with lastRepetition := [] }
  | .bad error => .error error

/-- The expression, if every group has been closed. -/
def finish (whole : Text) (draft : Draft) : Except SyntaxError Regex :=
  match draft.outer with
  | [] => .ok draft.group.close.expr
  | _ :: _ => .error (.missingParenthesis whole)

end Draft

/-- Takes the tokens in turn, and stops at the first error. -/
def Draft.takeAll (whole : Text) : Draft → List Token → Except SyntaxError Draft
  | draft, [] => .ok draft
  | draft, token :: rest =>
    match draft.take whole token with
    | .ok draft => takeAll whole draft rest
    | .error error => .error error

/-- The expression that a text writes. -/
def Regex.parse (whole : Text) : Except SyntaxError Regex :=
  match Draft.new.takeAll whole (Token.ofText whole) with
  | .ok draft => draft.finish whole
  | .error error => .error error

end CursorGrammar
