/-
# Reading binary32 numbers

The text of a binary32 number is a decimal number or one of three names, with or without a sign.
The decimal number is taken exactly and rounded once.
-/
import Reckon.Decimal.Numeral
import Reckon.Single.Rank

namespace Reckon.Numeral

/-- The binary32 number that a text stands for: a decimal number, infinity by either of its
names, or no number by its name.  The names may be in letters of either case. -/
def float32? (cs : List Char) : Option Float32 :=
  let (negative, unsigned) := unsign cs
  let name := String.ofList (unsigned.map Char.toLower)
  if name = "inf" ∨ name = "infinity" then
    some (Single.ofRank negative Single.infinity)
  else if name = "nan" then
    some Single.nan
  else
    (decimal? unsigned).map fun d => Single.ofRank negative (Single.ofDecimal d)

end Reckon.Numeral
