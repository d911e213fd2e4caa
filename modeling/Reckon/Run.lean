/-
# From source to output

A source text is read, its operands are checked, and it is executed if the check finds nothing.
Leaving out the check executes every program that can be read.  A text that is not a program, and
one that the check rejects, write nothing.
-/
import Reckon.Execution
import Reckon.Typing.Diagnostic

namespace Reckon

/-- What stops a source text from being executed to its end. -/
inductive Failure where
  /-- It is not a program. -/
  | parse (error : ParseError)
  /-- The program stops. -/
  | run (error : RunError)
deriving DecidableEq, Repr

/-- The text of a failure. -/
def Failure.message : Failure → String
  | parse e => e.message
  | run e => e.message

/-- What becomes of a program that does not fail. -/
inductive Outcome where
  /-- It has been executed to its end. -/
  | executed
  /-- It has not been executed because of what the diagnostics say. -/
  | rejected (diagnostics : List String)
deriving DecidableEq, Repr

/-- The outcome of something that writes to a sink, when that is the last thing to be done. -/
def conclude : Except RunError Unit × Sink → Except Failure Outcome × Sink
  | (.ok (), sink) => (.ok .executed, sink)
  | (.error e, sink) => (.error (.run e), sink)

/-- Reads, checks and executes a source text; the name of the file is for diagnostics. -/
def run (file source : String) (sink : Sink) : Except Failure Outcome × Sink :=
  match Program.ofSource source with
  | .error e => (.error (.parse e), sink)
  | .ok p =>
    match p.diagnostics file source with
    | [] => conclude (p.execute sink)
    | ds => (.ok (.rejected ds), sink)

/-- Reads and executes a source text. -/
def runUnchecked (source : String) (sink : Sink) : Except Failure Outcome × Sink :=
  match Program.ofSource source with
  | .error e => (.error (.parse e), sink)
  | .ok p => conclude (p.execute sink)

end Reckon
