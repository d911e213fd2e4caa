/-
# The program

The arguments are read, the file that they name is fetched, and the answer is written out.
-/
import Reckon.Command

namespace Reckon

/-- What a file holds. -/
def readContent (path : String) : IO FileContent := do
  try return FileContent.ofBytes (← IO.FS.readBinFile path)
  catch _ => return .unreadable

/-- What is found under the name of a file. -/
def fetch (path : String) : IO FileContent := do
  let present ← try discard (IO.FS.realPath path); pure true catch _ => pure false
  if present then readContent path else return .missing

end Reckon

open Reckon

/-- Answers a call of the program. -/
def main (arguments : List String) : IO UInt32 := do
  let invocation := Invocation.ofArguments arguments
  let content ←
    match invocation with
    | .perform request => fetch request.path
    | _ => pure .missing
  let answer := invocation.answer fun _ => content
  (← IO.getStdout).putStr answer.output
  (← IO.getStderr).putStr answer.errors
  return answer.code.toUInt32
