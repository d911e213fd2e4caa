/-
# The lines of a text

The lines of a text are what stands between its line feeds, so that there is always one line more
than there are line feeds, and the last line may be empty.
-/

namespace Reckon.Text

/-- What follows a line is shorter than what the line begins. -/
theorem length_lt_of_dropWhile_eq_cons {cs rest : List Char} {p : Char → Bool} {c : Char}
    (h : cs.dropWhile p = c :: rest) : rest.length < cs.length := by
  have le := (List.dropWhile_sublist p (l := cs)).length_le
  rw [h, List.length_cons] at le
  exact le

/-- The lines of a text, after those found already. -/
def linesOnto (found : Array (List Char)) (cs : List Char) : Array (List Char) :=
  let line := cs.takeWhile (· ≠ '\n')
  match h : cs.dropWhile (· ≠ '\n') with
  | [] => found.push line
  | _ :: rest =>
    have := length_lt_of_dropWhile_eq_cons h
    linesOnto (found.push line) rest
termination_by cs.length

/-- The lines of a text. -/
def lines (source : String) : Array (List Char) := linesOnto #[] source.toList

end Reckon.Text
