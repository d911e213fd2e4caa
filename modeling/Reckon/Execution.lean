/-
# Running a program

The statements of a program are executed in order, and each writes the value of its expression
to the sink, on a line of its own.  The program stops at the first error; what was written before
it stays written.
-/
import Reckon.Execution.Evaluation

namespace Reckon

/-- Writes a number on a line of its own. -/
def Sink.printLine (s : Sink) (a : Scalar) : Except RunError Unit × Sink :=
  match s.write (a.text ++ "\n") with
  | (.ok (), s') => (.ok (), s')
  | (.error refusal, s') => (.error ⟨.output refusal, none⟩, s')

/-- Executes a statement. -/
def Stmt.execute (s : Stmt) (sink : Sink) : Except RunError Unit × Sink :=
  match s with
  | print e =>
    match e.evaluate with
    | .ok v => sink.printLine v.scalar
    | .error err => (.error err, sink)

/-- Executes statements in order up to the first error. -/
def executeAll : List Stmt → Sink → Except RunError Unit × Sink
  | [], sink => (.ok (), sink)
  | s :: rest, sink =>
    match s.execute sink with
    | (.ok (), sink') => executeAll rest sink'
    | (.error err, sink') => (.error err, sink')

/-- Executes a program. -/
def Program.execute (p : Program) (sink : Sink) : Except RunError Unit × Sink :=
  executeAll p.statements sink

end Reckon
