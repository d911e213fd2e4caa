/-
# Sets of characters given by intervals

The classes of characters that the library needs are properties of the Unicode standard, which
publishes them as intervals of code points.  A set of characters is kept in that form, and a
character belongs to it when some interval holds its code point.
-/

namespace Reckon.Text

/-- A set of characters, given by closed intervals of code points. -/
structure CodePoints where
  /-- The first and the last code point of each interval. -/
  intervals : List (Nat × Nat)

namespace CodePoints

/-- Whether a character is in the set. -/
def contains (s : CodePoints) (c : Char) : Bool :=
  s.intervals.any fun i => i.1 ≤ c.toNat && c.toNat ≤ i.2

theorem contains_iff {s : CodePoints} {c : Char} :
    s.contains c = true ↔ ∃ i ∈ s.intervals, i.1 ≤ c.toNat ∧ c.toNat ≤ i.2 := by
  simp [contains]

end CodePoints

end Reckon.Text
