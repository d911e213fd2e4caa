/-
# Quoted text

A text is shown between double quotes, so that where it ends is visible and nothing in it can
be taken for layout.  The quote and the backslash are preceded by a backslash, the usual four
control characters have a letter each, and a character that cannot be shown on its own is
written as its code point in hexadecimal.  All else stands for itself.
-/
import Reckon.Text.Printable

namespace Reckon.Text.Quoted

/-- The written form of a code point: `\u`, and the number in lower-case hexadecimal between
braces, without leading zeros. -/
def codePoint (c : Char) : List Char :=
  ['\\', 'u', '\x7b'] ++ Nat.toDigits 16 c.toNat ++ ['\x7d']

/-- The written form of one character between the quotes. -/
def escape (c : Char) : List Char :=
  match c with
  | '\x00' => ['\\', '0']
  | '\t' => ['\\', 't']
  | '\r' => ['\\', 'r']
  | '\n' => ['\\', 'n']
  | '"' => ['\\', '"']
  | '\\' => ['\\', '\\']
  | c => if isExtender c || !isPrintable c then codePoint c else [c]

/-- A text between quotes. -/
def encode (cs : List Char) : List Char :=
  '"' :: cs.flatMap escape ++ ['"']

end Reckon.Text.Quoted
