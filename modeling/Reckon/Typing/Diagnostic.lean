/-
# Diagnostics

An error in the kinds of operands is shown with its place, the line of the source on which it is,
a mark under the operator, and its text.  The mark is preceded by a tab, as is the quoted line,
and then by a space for every character before the operator but one, which is a space in any
case.
-/
import Reckon.Parser
import Reckon.Text.Lines
import Reckon.Typing

namespace Reckon

/-- The diagnostic of an error in a file with the lines `lines`.  A line that the file does not
have is quoted as an empty one. -/
def KindError.diagnostic (file : String) (lines : Array (List Char)) (e : KindError) : String :=
  let quoted := (lines[e.position.line - 1]?).getD []
  let indent := List.replicate (e.position.column - 2) ' '
  "File '" ++ file ++ "', line " ++ toString e.position.line ++ ", col "
    ++ toString e.position.column ++ "\n\t" ++ String.ofList quoted ++ "\n\t "
    ++ String.ofList indent ++ "^------\n" ++ e.message ++ "\n"

/-- The diagnostics of a program that was read from a source text. -/
def Program.diagnostics (p : Program) (file source : String) : List String :=
  let lines := Text.lines source
  p.kindErrors.map (KindError.diagnostic file lines)

end Reckon
