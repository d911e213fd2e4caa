/-
# Decimal numbers

A nonnegative number in decimal notation is a coefficient times a power of ten.  One number has
many such forms; `trim` picks the one whose coefficient does not end in zero.
-/

namespace Reckon

/-- The number `coefficient * 10 ^ exponent`. -/
structure Decimal where
  /-- The digits, read as one natural number. -/
  coefficient : Nat
  /-- The power of ten that they are multiplied by. -/
  exponent : Int
deriving DecidableEq, Repr, Inhabited

namespace Decimal

/-- The same number without zeros at the end of its coefficient; zero is left as it is. -/
def trim (d : Decimal) : Decimal :=
  if d.coefficient ≠ 0 ∧ d.coefficient % 10 = 0 then
    trim ⟨d.coefficient / 10, d.exponent + 1⟩
  else
    d
termination_by d.coefficient
decreasing_by exact Nat.div_lt_self (by omega) (by decide)

/-- The digits of the coefficient, the first of which is zero only if there is no other. -/
def digits (d : Decimal) : List Char := Nat.toDigits 10 d.coefficient

/-- How many of the digits stand before the decimal point when the number is written out, a
negative count being that of the zeros between the point and the first digit. -/
def point (d : Decimal) : Int := d.exponent + d.digits.length

@[simp] theorem digits_ne_nil (d : Decimal) : d.digits ≠ [] := by
  simp [digits]

theorem isDigit_of_mem_digits {d : Decimal} {c : Char} (h : c ∈ d.digits) : c.isDigit = true :=
  Nat.isDigit_of_mem_toDigits (by decide) (by decide) h

/-- A trimmed coefficient is zero or does not end in zero. -/
theorem trim_coefficient (d : Decimal) :
    d.trim.coefficient = 0 ∨ d.trim.coefficient % 10 ≠ 0 := by
  fun_induction trim d with
  | case1 d h ih => exact ih
  | case2 d h => omega

end Decimal

end Reckon
