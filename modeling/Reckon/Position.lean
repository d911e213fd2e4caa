/-
# Positions in a source text

A position is a line and a column, both counted from one, and columns count characters.
Reading a character moves the position: a line feed opens the next line, any other character
moves one column to the right.  The position after a whole text is the fold of that step, so
the place of everything the lexer finds is a function of the text before it.
-/

namespace Reckon

/-- A place in a source text. -/
structure Position where
  /-- The line, the first one being line 1. -/
  line : Nat
  /-- The column, the first character of a line standing in column 1. -/
  column : Nat
deriving DecidableEq, Repr, Inhabited

namespace Position

/-- The place of the first character of a text. -/
def start : Position := ⟨1, 1⟩

/-- The place after a character that stands at `p`. -/
def step (p : Position) (c : Char) : Position :=
  if c = '\n' then ⟨p.line + 1, 1⟩ else ⟨p.line, p.column + 1⟩

/-- The place after a text that begins at `p`. -/
def advance (p : Position) (cs : List Char) : Position :=
  cs.foldl step p

@[simp] theorem step_newline (p : Position) : p.step '\n' = ⟨p.line + 1, 1⟩ := rfl

theorem step_of_ne {c : Char} (h : c ≠ '\n') (p : Position) :
    p.step c = ⟨p.line, p.column + 1⟩ := by
  simp [step, h]

@[simp] theorem advance_nil (p : Position) : p.advance [] = p := rfl

@[simp] theorem advance_cons (p : Position) (c : Char) (cs : List Char) :
    p.advance (c :: cs) = (p.step c).advance cs := rfl

@[simp] theorem advance_append (p : Position) (cs ds : List Char) :
    p.advance (cs ++ ds) = (p.advance cs).advance ds := by
  simp [advance]

end Position

end Reckon
