/-
# Binary32 numbers as text

A number is written with the digits of its shortest decimal, either plainly, with a point and at
least one digit on each side of it, or in scientific notation, with one digit before the point
and an exponent of ten.  A `FloatStyle` says which numbers are written which way and how the
scientific form looks.

There are two styles.  `FloatStyle.printed` is that of program output and
`FloatStyle.literal` that of listings of programs.
-/
import Reckon.Single.Shortest

namespace Reckon

/-- How binary32 numbers are written. -/
structure FloatStyle where
  /-- The least magnitude above zero that is written plainly. -/
  plainFrom : Decimal
  /-- The least magnitude above it that is no longer written plainly. -/
  plainBelow : Decimal
  /-- What precedes the exponent in scientific notation. -/
  mark : Char
  /-- What follows a single digit in scientific notation. -/
  padding : String
  /-- The text of infinity, without its sign. -/
  infinity : String

namespace FloatStyle

/-- The style of program output: plain from a thousandth up to ten million, an upper-case mark,
and a fraction also in scientific notation. -/
def printed : FloatStyle where
  plainFrom := ⟨1, -3⟩
  plainBelow := ⟨1, 7⟩
  mark := 'E'
  padding := ".0"
  infinity := "Infinity"

/-- The style of listings: plain from a ten-thousandth up to ten thousand million million, a
lower-case mark, and no more digits than needed in scientific notation. -/
def literal : FloatStyle where
  plainFrom := ⟨1, -4⟩
  plainBelow := ⟨1, 16⟩
  mark := 'e'
  padding := ""
  infinity := "inf"

/-- A decimal written out, with at least one digit on each side of the point. -/
def plain (d : Decimal) : List Char :=
  if 0 < d.point then
    let whole := d.point.toNat
    if whole < d.digits.length then
      d.digits.take whole ++ '.' :: d.digits.drop whole
    else
      d.digits ++ List.replicate (whole - d.digits.length) '0' ++ ['.', '0']
  else
    '0' :: '.' :: List.replicate (-d.point).toNat '0' ++ d.digits

/-- A decimal with one digit before the point and an exponent of ten. -/
def scientific (style : FloatStyle) (d : Decimal) : List Char :=
  let fraction := if d.digits.length = 1 then style.padding.toList else '.' :: d.digits.drop 1
  d.digits.take 1 ++ fraction ++ style.mark :: (toString (d.point - 1)).toList

/-- Whether a rank is written plainly. -/
def isPlain (style : FloatStyle) (r : Nat) : Bool :=
  Single.ofDecimal style.plainFrom ≤ r && r < Single.ofDecimal style.plainBelow

/-- The text of the number of a rank, without its sign. -/
def magnitude (style : FloatStyle) (r : Nat) : List Char :=
  if r = 0 then ['0', '.', '0']
  else if r = Single.infinity then style.infinity.toList
  else if style.isPlain r then plain (Single.shortest r)
  else style.scientific (Single.shortest r)

/-- The text of a number. -/
def text (style : FloatStyle) (x : Float32) : String :=
  let r := Single.rank x
  if Single.infinity < r then "NaN"
  else String.ofList ((if Single.isNegative x then ['-'] else []) ++ style.magnitude r)

end FloatStyle

end Reckon
