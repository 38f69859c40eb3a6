import CursorGrammar.Regex.Basic
import CursorGrammar.Regex.CharClass
import CursorGrammar.Regex.Error
import CursorGrammar.Text.NameCharacter

set_option autoImplicit false

/-! # Tokens of a regular expression

A text is cut into tokens from left to right. Whatever is no token ends the list with the error it
is, so that a reader of the list meets the problems of an expression in the order in which they
stand in the text. Tokens do not depend on what stands before them: the flags that change what a
token means are applied by the reader. -/

namespace CursorGrammar

/-- The settings that a group can change. -/
inductive Flag where
  /-- Letters stand for their case variants too. -/
  | fold
  /-- `^` and `$` hold at every line. -/
  | lines
  /-- The dot stands for the line feed too. -/
  | dotAll
  /-- Repetitions are lazy, and those with a question mark are greedy. -/
  | lazy
  deriving DecidableEq, Repr

/-- A repetition as it is written. -/
structure Repetition where
  least : Nat
  most : Option Nat
  /-- A question mark follows. -/
  marked : Bool
  /-- The bounds are written as numbers. -/
  counted : Bool
  /-- All of its characters. -/
  written : Text
  deriving DecidableEq, Repr

/-- A token of a regular expression. -/
inductive Token where
  /-- One character of a set: a letter, an escape or a class. -/
  | set (members : CharClass)
  | dot
  | caret
  | dollar
  | look (assertion : Assertion)
  | bar
  /-- Opens a group, inside which the flags have changed. A group that captures what it reads is
      kept as one. -/
  | openGroup (captures : Bool) (changes : List (Flag × Bool))
  | closeGroup
  /-- Changes flags until the end of the group it stands in. -/
  | flags (changes : List (Flag × Bool))
  | repetition (times : Repetition)
  /-- An empty quotation, which separates what it stands between. -/
  | nothing
  /-- What follows is no token. -/
  | bad (error : SyntaxError)
  deriving DecidableEq, Repr

namespace Token

/-- The token of one character that stands for itself. -/
def literal (c : Char) : Token :=
  set (.single c.toNat)

/-! ## Digits -/

def isDigit (c : Char) : Bool := 48 ≤ c.toNat && c.toNat ≤ 57

def isOctal (c : Char) : Bool := 48 ≤ c.toNat && c.toNat ≤ 55

/-- The value of a hexadecimal digit. -/
def hexValue? (c : Char) : Option Nat :=
  let code := c.toNat
  if 48 ≤ code && code ≤ 57 then some (code - 48)
  else if 65 ≤ code && code ≤ 70 then some (code - 55)
  else if 97 ≤ code && code ≤ 102 then some (code - 87)
  else none

/-! ## Escapes -/

/-- Reads hexadecimal digits up to the closing brace. `written` is what stands before them, in
    reverse, `value` is what they make so far, and a digit has been read if `started`. -/
def bracedCode (written : Text) (value : Nat) (started : Bool) :
    Text → Except SyntaxError (Nat × Text)
  | [] => .error (.escape written.reverse)
  | c :: rest =>
    match hexValue? c with
    | some digit =>
      if value * 16 + digit ≤ lastCode then
        bracedCode (c :: written) (value * 16 + digit) true rest
      else .error (.escape (c :: written).reverse)
    | none =>
      if c = '\x7d' ∧ started then .ok (value, rest)
      else .error (.escape (c :: written).reverse)

/-- Reads the code point after `\x`: two hexadecimal digits, or any number of them in braces. -/
def hexCode : Text → Except SyntaxError (Nat × Text)
  | [] => .error (.escape ['\\', 'x'])
  | '\x7b' :: rest => bracedCode ['\x7b', 'x', '\\'] 0 false rest
  | [c] => .error (.escape ['\\', 'x', c])
  | c :: d :: rest =>
    match hexValue? c, hexValue? d with
    | some high, some low => .ok (high * 16 + low, rest)
    | _, _ => .error (.escape ['\\', 'x', c, d])

/-- The control character that a backslash and this letter stand for. -/
def controlCode? : Char → Option Nat
  | 'a' => some 7
  | 'f' => some 12
  | 'n' => some 10
  | 'r' => some 13
  | 't' => some 9
  | 'v' => some 11
  | _ => none

/-- The letter or digit belongs to ASCII. -/
def isAlphanumeric (c : Char) : Bool :=
  isDigit c || (65 ≤ c.toNat && c.toNat ≤ 90) || (97 ≤ c.toNat && c.toNat ≤ 122)

/-- Reads the code point that a backslash and what follows it stand for. Octal numbers have up to
    three digits, and only a zero may be one alone. -/
def escapedCode : Text → Except SyntaxError (Nat × Text)
  | [] => .error .trailingBackslash
  | c :: rest =>
    if isOctal c then
      let more := (rest.take 2).takeWhile isOctal
      if c = '0' ∨ more ≠ [] then .ok (Nat.ofDigitChars 8 (c :: more) 0, rest.drop more.length)
      else .error (.escape ['\\', c])
    else if c = 'x' then hexCode rest
    else match controlCode? c with
      | some code => .ok (code, rest)
      | none =>
        if c.toNat < 0x80 ∧ !isAlphanumeric c then .ok (c.toNat, rest)
        else .error (.escape ['\\', c])

/-! ## Classes in brackets -/

/-- Splits a text at the first `:]`, if there is one. -/
def splitName : Text → Option (Text × Text)
  | ':' :: ']' :: rest => some ([], rest)
  | c :: rest => (splitName rest).map fun (name, after) => (c :: name, after)
  | [] => none

/-- Reads one end of a range. `whole` is the class from its bracket on. -/
def classCode (whole : Text) : Text → Except SyntaxError (Nat × Text)
  | [] => .error (.missingBracket whole)
  | '\\' :: rest => escapedCode rest
  | c :: rest => .ok (c.toNat, rest)

/-- Reads a character or a range of a class. A hyphen before the closing bracket is not the one
    of a range. -/
def classRange (whole t : Text) : Except SyntaxError (CharClass.Part × Text) := do
  let (low, rest) ← classCode whole t
  match rest with
  | '-' :: c :: after =>
    if c = ']' then return (⟨[(low, low)], false⟩, rest)
    else
      let (high, rest) ← classCode whole (c :: after)
      if high < low then throw (.classRange (t.take (t.length - rest.length)))
      else return (⟨[(low, high)], false⟩, rest)
  | _ => return (⟨[(low, low)], false⟩, rest)

/-- The part of a class at the beginning of the text, if it is written by name: between `[:` and
    `:]`, or by a backslash and a letter. -/
def classGroup : Text → Except SyntaxError (Option (CharClass.Part × Text))
  | '[' :: ':' :: rest =>
    match splitName rest with
    | none => .ok none
    | some (name, after) =>
      match CharClass.namedPart? name with
      | some part => .ok (some (part, after))
      | none => .error (.classRange (['[', ':'] ++ name ++ [':', ']']))
  | '\\' :: c :: rest =>
    match CharClass.letterPart? c with
    | some part => .ok (some (part, rest))
    | none => .ok none
  | _ => .ok none

/-- Reads the parts of a class up to the bracket that closes it; at the beginning of the class a
    bracket is a member. The recursion goes by the length of the text. -/
def classParts (whole : Text) (first : Bool) :
    Nat → Text → Except SyntaxError (List CharClass.Part × Text)
  | _, [] => .error (.missingBracket whole)
  | 0, _ => .error (.missingBracket whole)
  | steps + 1, c :: rest =>
    if c = ']' ∧ !first then .ok ([], rest)
    else do
      let (part, after) ← match ← classGroup (c :: rest) with
        | some read => pure read
        | none => classRange whole (c :: rest)
      let (parts, after) ← classParts whole false steps after
      return (part :: parts, after)

/-- Reads a class after its opening bracket. -/
def classSet (t : Text) : Except SyntaxError (CharClass × Text) :=
  match t with
  | '^' :: rest => do
    let (parts, after) ← classParts ('[' :: t) true rest.length rest
    return (⟨parts, true⟩, after)
  | _ => do
    let (parts, after) ← classParts ('[' :: t) true t.length t
    return (⟨parts, false⟩, after)

/-! ## Repetitions -/

/-- Reads a bound: digits without a leading zero, and not more than nine of them. -/
def bound (t : Text) : Option (Nat × Text) :=
  let digits := t.takeWhile isDigit
  let rest := t.dropWhile isDigit
  match digits with
  | [] => none
  | '0' :: _ :: _ => none
  | _ => if digits.length ≤ 9 then some (Nat.ofDigitChars 10 digits 0, rest) else none

/-- Reads the bounds of a repetition after its opening brace. -/
def bounds (t : Text) : Option (Nat × Option Nat × Text) := do
  let (least, rest) ← bound t
  match rest with
  | '\x7d' :: rest => return (least, some least, rest)
  | ',' :: '\x7d' :: rest => return (least, none, rest)
  | ',' :: rest =>
    match ← bound rest with
    | (most, '\x7d' :: rest) => return (least, some most, rest)
    | _ => none
  | _ => none

/-- Ends a repetition: takes the question mark that may follow, and notes what was written from
    the beginning of `t` on. -/
def repetitionOf (t : Text) (least : Nat) (most : Option Nat) (counted : Bool) (rest : Text) :
    Token × Text :=
  let (marked, rest) := match rest with
    | '?' :: after => (true, after)
    | _ => (false, rest)
  (repetition ⟨least, most, marked, counted, t.take (t.length - rest.length)⟩, rest)

/-! ## Groups -/

/-- The flag of a letter. -/
def flag? : Char → Option Flag
  | 'i' => some .fold
  | 'm' => some .lines
  | 's' => some .dotAll
  | 'U' => some .lazy
  | _ => none

/-- Reads flags up to the colon that opens a group or the parenthesis that ends them. `written` is
    what has been read, in reverse; after a hyphen flags are taken away, and one must follow. -/
def flagChanges (written : Text) (negated fresh : Bool) (changes : List (Flag × Bool)) :
    Text → Token × Text
  | [] => (bad (.groupForm written.reverse), [])
  | c :: rest =>
    match flag? c with
    | some flag => flagChanges (c :: written) negated false (changes ++ [(flag, !negated)]) rest
    | none =>
      if c = '-' ∧ !negated then flagChanges (c :: written) true true changes rest
      else if (c = ':' ∨ c = ')') ∧ !(negated && fresh) then
        (if c = ':' then openGroup false changes else flags changes, rest)
      else (bad (.groupForm (c :: written).reverse), [])

/-- Reads the name of a group up to the angle bracket. `opening` is what stands before it. -/
def namedGroup (opening t : Text) : Token × Text :=
  let name := t.takeWhile (· ≠ '>')
  match t.dropWhile (· ≠ '>') with
  | [] => (bad (.groupName (opening ++ t)), [])
  | _ :: rest =>
    if name ≠ [] ∧ name.all isNameCharacter then (openGroup true [], rest)
    else (bad (.groupName (opening ++ name ++ ['>'])), [])

/-- Reads what opens a group, after `(?`. -/
def specialGroup : Text → Token × Text
  | '=' :: _ => (bad (.groupForm ['(', '?', '=']), [])
  | '!' :: _ => (bad (.groupForm ['(', '?', '!']), [])
  | '<' :: '=' :: _ :: _ => (bad (.groupForm ['(', '?', '<', '=']), [])
  | '<' :: '!' :: _ :: _ => (bad (.groupForm ['(', '?', '<', '!']), [])
  | 'P' :: '<' :: c :: rest => namedGroup ['(', '?', 'P', '<'] (c :: rest)
  | '<' :: c :: rest => namedGroup ['(', '?', '<'] (c :: rest)
  | t => flagChanges ['?', '('] false true [] t

/-! ## The list of tokens -/

/-- Reads a quotation after `\Q`, up to `\E` or the end. -/
def quotation : Text → List Token × Text
  | [] => ([], [])
  | '\\' :: 'E' :: rest => ([], rest)
  | c :: rest =>
    let (tokens, after) := quotation rest
    (literal c :: tokens, after)

/-- Reads what a backslash and the rest of the text begin. -/
def escaped : Text → List Token × Text
  | 'b' :: rest => ([look .wordEdge], rest)
  | 'B' :: rest => ([look .notWordEdge], rest)
  | 'A' :: rest => ([look .textBegin], rest)
  | 'z' :: rest => ([look .textEnd], rest)
  | 'Q' :: rest =>
    match quotation rest with
    | ([], after) => ([nothing], after)
    | read => read
  | t =>
    match t with
    | c :: rest =>
      match CharClass.letterPart? c with
      | some part => ([set ⟨[part], false⟩], rest)
      | none =>
        match escapedCode t with
        | .ok (code, rest) => ([set (.single code)], rest)
        | .error error => ([bad error], [])
    | [] => ([bad .trailingBackslash], [])

/-- Reads the next token, or a quotation, at the beginning of the text `c :: rest`. -/
def next (c : Char) (rest : Text) : List Token × Text :=
  match c with
  | '\\' => escaped rest
  | '[' =>
    match classSet rest with
    | .ok (members, rest) => ([set members], rest)
    | .error error => ([bad error], [])
  | '(' =>
    match rest with
    | '?' :: rest =>
      let (token, rest) := specialGroup rest
      ([token], rest)
    | _ => ([openGroup true []], rest)
  | ')' => ([closeGroup], rest)
  | '|' => ([bar], rest)
  | '^' => ([caret], rest)
  | '$' => ([dollar], rest)
  | '.' => ([dot], rest)
  | '*' =>
    let (token, rest) := repetitionOf (c :: rest) 0 none false rest
    ([token], rest)
  | '+' =>
    let (token, rest) := repetitionOf (c :: rest) 1 none false rest
    ([token], rest)
  | '?' =>
    let (token, rest) := repetitionOf (c :: rest) 0 (some 1) false rest
    ([token], rest)
  | '\x7b' =>
    match bounds rest with
    | some (least, most, after) =>
      let (token, rest) := repetitionOf (c :: rest) least most true after
      ([token], rest)
    | none => ([literal c], rest)
  | _ => ([literal c], rest)

/-- The tokens of the text. The recursion goes by the length of the text. -/
def readAll : Nat → Text → List Token
  | _, [] => []
  | 0, _ :: _ => []
  | steps + 1, c :: rest =>
    let (tokens, rest) := next c rest
    tokens ++ readAll steps rest

/-- The tokens of a text. -/
def ofText (t : Text) : List Token :=
  readAll t.length t

end Token

end CursorGrammar
