/-
# The binary32 numbers in order

The nonnegative numbers of the format binary32 are numbered in increasing order, zero being
number 0 and infinity the last.  This number, the rank, is the bit pattern without its sign.  Up
to infinity every rank stands for a whole number of units of `2 ^ -149`: the first `2 ^ 23` of
them are one unit apart, the next `2 ^ 23` too, and from there on the distance doubles every
`2 ^ 23` ranks.

Rounding a quotient of natural numbers to the nearest of them is one division with rounding, the
half going to the even neighbour: which power of two the divisor takes follows from the size of
the quotient, and a carry into the next power of two needs no care, because ranks go on in order.
-/
import Reckon.Decimal

namespace Reckon.Single

/-- The rank of infinity.  Smaller ranks are those of the finite numbers, larger ones stand for
no number. -/
def infinity : Nat := 0x7F800000

/-- How many ranks there are from one power of two to the next, `2 ^ 23`. -/
def span : Nat := 0x800000

/-- The value of a finite rank in units of `2 ^ -149`. -/
def units (r : Nat) : Nat :=
  if r < span then r else (span + r % span) <<< (r / span - 1)

/-- The natural number nearest to `num / den`, of two the even one. -/
def roundHalfEven (num den : Nat) : Nat :=
  let below := num / den
  let excess := 2 * (num % den)
  if excess < den ∨ (excess = den ∧ below % 2 = 0) then below else below + 1

/-- The rank nearest to `num / den` units; the quotients beyond all finite numbers have the rank
of infinity. -/
def nearest (num den : Nat) : Nat :=
  let shift := (num / den).log2 - 23
  min infinity (shift * span + roundHalfEven num (den <<< shift))

/-- The rank nearest to a decimal number.  A number of `10 ^ 40` or more is beyond all finite
ones, and one below `10 ^ -46` is nearest to zero; these are told by their size alone, since
their powers of ten may be too large to compute with. -/
def ofDecimal (d : Decimal) : Nat :=
  if d.coefficient = 0 then
    0
  else if 40 ≤ d.exponent then
    infinity
  else if d.exponent + (d.coefficient.log2 / 3 + 1) ≤ -46 then
    0
  else if 0 ≤ d.exponent then
    nearest ((d.coefficient * Nat.pow 10 d.exponent.toNat) <<< 149) 1
  else
    nearest (d.coefficient <<< 149) (Nat.pow 10 (-d.exponent).toNat)

/-! ## Ranks and numbers -/

/-- What a minus sign adds to the rank in the bit pattern of a number, `2 ^ 31`. -/
def signBit : Nat := 0x80000000

/-- The rank of a number without its sign. -/
def rank (x : Float32) : Nat := x.toBits.toNat % signBit

/-- Whether a number has a minus sign; zero and infinity can have one. -/
def isNegative (x : Float32) : Bool := signBit ≤ x.toBits.toNat

/-- The number of a rank up to infinity, with a sign. -/
def ofRank (negative : Bool) (r : Nat) : Float32 :=
  Float32.ofBits (UInt32.ofNat (r + if negative then signBit else 0))

/-- The value that stands for no number. -/
def nan : Float32 := Float32.ofBits 0x7FC00000

@[simp] theorem roundHalfEven_one (n : Nat) : roundHalfEven n 1 = n := by
  simp [roundHalfEven, Nat.mod_one]

end Reckon.Single
