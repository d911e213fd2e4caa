/-
# The shortest decimal of a binary32 number

Of the decimal numbers that are nearest to no other binary32 number, the shortest has the fewest
digits, and among those of the same length it is the closest to the number; of two equally close
ones the larger is taken.

If any decimal with a given number of digits is nearest to the number, one of the two between
which the number lies is, so two candidates are tried for each count of digits.  Nine digits are
enough for every binary32 number.  The exact value, which is a decimal with more digits, stands
behind the nine as a last resort, so that what is returned reads back by construction.
-/
import Reckon.Single.Rank

namespace Reckon.Single

/-- The exact value of a rank. -/
def exact (r : Nat) : Decimal := ⟨units r * Nat.pow 5 149, -149⟩

/-- How many digits the value of a rank has before the decimal point, a negative count being
that of the zeros after it.  Every rank but zero has a value above `10 ^ -54`. -/
def leading (r : Nat) : Int :=
  (Nat.toDigits 10 ((units r * Nat.pow 10 54) >>> 149)).length - 54

/-- The value of a rank as a fraction in steps of `10 ^ grid`. -/
def onGrid (r : Nat) (grid : Int) : Nat × Nat :=
  if 0 ≤ grid then (units r, Nat.pow 10 grid.toNat <<< 149)
  else (units r * Nat.pow 10 (-grid).toNat, 1 <<< 149)

/-- The decimal with the last digit at `10 ^ grid` that is nearest to the rank's value among those
that are read back as the rank, if there is one. -/
def candidate? (r : Nat) (grid : Int) : Option Decimal :=
  let (num, den) := onGrid r grid
  let low : Decimal := ⟨num / den, grid⟩
  let high : Decimal := ⟨num / den + 1, grid⟩
  if ofDecimal low = r ∧ (ofDecimal high ≠ r ∨ 2 * (num % den) < den) then some low
  else if ofDecimal high = r then some high
  else none

/-- The shortest decimal that is read back as a rank, without zeros at its end. -/
def shortest (r : Nat) : Decimal :=
  (([1, 2, 3, 4, 5, 6, 7, 8, 9].findSome? fun n => candidate? r (leading r - n)).getD
    (exact r)).trim

/-- What a grid offers is read back as the rank. -/
theorem ofDecimal_candidate {r : Nat} {grid : Int} {d : Decimal} (h : candidate? r grid = some d) :
    ofDecimal d = r := by
  unfold candidate? at h
  split at h
  rename_i num den _
  dsimp only at h
  split at h
  · rename_i hlow
    simp only [Option.some.injEq] at h
    exact h ▸ hlow.1
  · split at h
    · rename_i hhigh
      simp only [Option.some.injEq] at h
      exact h ▸ hhigh
    · simp at h

end Reckon.Single
