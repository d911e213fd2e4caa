/-
# Blank characters

The Unicode property White_Space.  It has the six ASCII blanks and the separators of other
scripts, and it leaves out the zero-width characters.
-/
import Reckon.Text.CodePoints

namespace Reckon.Text

/-- The characters beyond ASCII that have the property White_Space. -/
def blankBeyondAscii : CodePoints :=
  ⟨[(0x85, 0x85), (0xA0, 0xA0), (0x1680, 0x1680), (0x2000, 0x200A), (0x2028, 0x2029),
    (0x202F, 0x202F), (0x205F, 0x205F), (0x3000, 0x3000)]⟩

/-- Whether a character has the property White_Space. -/
def isBlank (c : Char) : Bool :=
  if c.toNat < 0x80 then
    c = ' ' || (9 ≤ c.toNat && c.toNat ≤ 13)
  else
    blankBeyondAscii.contains c

end Reckon.Text
