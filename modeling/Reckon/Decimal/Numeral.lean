/-
# Reading numerals

Numerals are read from the whole of a text; there is no numeral when anything is left over.
A natural number is one or more digits, and an integer may have a sign before them.  A decimal
number is digits with at most one point among them, before or after them, and may have an
exponent of ten behind.
-/
import Reckon.Decimal

namespace Reckon.Numeral

/-- A natural number: one or more digits, leading zeros included. -/
def natural? (cs : List Char) : Option Nat :=
  if cs ≠ [] ∧ cs.all Char.isDigit = true then some (Nat.ofDigitChars 10 cs 0) else none

/-- Whether a numeral has a minus sign, and what follows its sign, if it has one. -/
def unsign : List Char → Bool × List Char
  | '-' :: cs => (true, cs)
  | '+' :: cs => (false, cs)
  | cs => (false, cs)

/-- An integer: a natural number, with or without a sign. -/
def integer? (cs : List Char) : Option Int :=
  let (negative, digits) := unsign cs
  (natural? digits).map fun n => if negative then -(n : Int) else n

/-- An exponent of ten: nothing, or the letter `e` of either case and an integer. -/
def exponent? : List Char → Option Int
  | [] => some 0
  | c :: cs => if c = 'e' ∨ c = 'E' then integer? cs else none

/-- The digits after the decimal point, if a point comes first, and what follows them. -/
def fraction : List Char → List Char × List Char
  | '.' :: cs => (cs.takeWhile Char.isDigit, cs.dropWhile Char.isDigit)
  | cs => ([], cs)

/-- A decimal number: digits, a point and digits, and an exponent.  Of these, all but one digit
may be absent. -/
def decimal? (cs : List Char) : Option Decimal :=
  let whole := cs.takeWhile Char.isDigit
  let (parts, rest) := fraction (cs.dropWhile Char.isDigit)
  if whole = [] ∧ parts = [] then
    none
  else
    (exponent? rest).map fun e => ⟨Nat.ofDigitChars 10 (whole ++ parts) 0, e - parts.length⟩

/-- A 32-bit integer: an integer in range. -/
def int32? (cs : List Char) : Option Int32 :=
  (integer? cs).bind fun n =>
    if -0x80000000 ≤ n ∧ n < 0x80000000 then some (Int32.ofInt n) else none

/-- The decimal text of a natural number is read as that number. -/
theorem natural?_toDigits (n : Nat) : natural? (Nat.toDigits 10 n) = some n := by
  have h : ∀ c ∈ Nat.toDigits 10 n, c.isDigit = true := fun c hc =>
    Nat.isDigit_of_mem_toDigits (by decide) (by decide) hc
  rw [natural?, if_pos ⟨Nat.toDigits_ne_nil, List.all_eq_true.2 h⟩,
    Nat.ofDigitChars_ten_toDigits]

end Reckon.Numeral
