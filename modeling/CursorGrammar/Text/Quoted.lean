import CursorGrammar.Text
import CursorGrammar.Text.Printable

set_option autoImplicit false

/-! # Quoted texts

A quoted text stands between two quotation marks, with a backslash before the mark in use and
before a backslash, and with an escape for every character that is not to be shown as itself. The
mark is the single one unless the text has a single and no double mark. -/

namespace CursorGrammar

/-- The single quotation mark. -/
def singleMark : Char := '\x27'

/-- The double quotation mark. -/
def doubleMark : Char := '\x22'

/-- The last `width` hexadecimal digits of a number, in lower case. -/
def hexadecimal : Nat → Nat → Text
  | 0, _ => []
  | width + 1, n => hexadecimal width (n / 16) ++ [Nat.digitChar (n % 16)]

/-- The number's decimal digits, after a minus sign if it is negative. -/
def decimal : Int → Text
  | .ofNat n => Nat.toDigits 10 n
  | .negSucc n => '-' :: Nat.toDigits 10 (n + 1)

namespace Text

/-- The mark to put around the text: the single one, unless only the double one is free. -/
def mark (t : Text) : Char :=
  if t.contains singleMark && !t.contains doubleMark then doubleMark else singleMark

/-- The escape of a character by its code point, in the shortest of the three widths. -/
def escapeCode (code : Nat) : Text :=
  if code ≤ 0xff then '\\' :: 'x' :: hexadecimal 2 code
  else if code ≤ 0xffff then '\\' :: 'u' :: hexadecimal 4 code
  else '\\' :: 'U' :: hexadecimal 8 code

/-- What stands for one character between the marks, where `shown` tells the characters that
    are shown as themselves. -/
def quoteChar (shown : Char → Bool) (mark c : Char) : Text :=
  if c = mark ∨ c = '\\' then ['\\', c]
  else if c = '\t' then ['\\', 't']
  else if c = '\n' then ['\\', 'n']
  else if c = '\r' then ['\\', 'r']
  else if shown c then [c]
  else escapeCode c.toNat

/-- The text between its marks, where `shown` tells the characters that are shown as themselves. -/
def quote (shown : Char → Bool) (t : Text) : Text :=
  t.mark :: t.flatMap (quoteChar shown t.mark) ++ [t.mark]

/-- The quoted form of a text: printable characters are shown. -/
def quoted (t : Text) : Text :=
  t.quote isPrintable

/-- The bytes of the text in UTF-8, each as the character of that code. -/
def bytes (t : Text) : Text :=
  t.flatMap fun c => (String.utf8EncodeChar c).map fun byte => Char.ofNat byte.toNat

/-- The quoted form of the text's bytes: a `b`, and then the bytes with only those shown that are
    visible in ASCII. -/
def quotedBytes (t : Text) : Text :=
  'b' :: t.bytes.quote fun c => 0x20 ≤ c.toNat && c.toNat < 0x7f

end Text

end CursorGrammar
