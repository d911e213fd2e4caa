/-
# Sessions

A session is a list of steps on one sink.  A step that fails does not end the session: the next
one goes on with the sink as it was left.  Arithmetic by itself leaves the sink alone.
-/
import Reckon.Run

namespace Reckon

/-- The steps of a session. -/
inductive Step where
  /-- Writes a number on a line of its own. -/
  | print (a : Scalar)
  /-- Applies an operator between two numbers. -/
  | combine (op : Operator) (a b : Scalar)
  /-- Applies an operator in front of a number. -/
  | sign (op : Operator) (a : Scalar)
  /-- Executes a program. -/
  | execute (p : Program)
  /-- Reads, checks and executes a source text. -/
  | run (file source : String)
  /-- Reads and executes a source text. -/
  | runUnchecked (source : String)

/-- What comes of a step. -/
inductive Response where
  /-- A line has been written, or has not. -/
  | printed (result : Except RunError Unit)
  /-- A number has been computed, or has not. -/
  | number (result : Except Fault Scalar)
  /-- A program has been dealt with. -/
  | ended (result : Except Failure Outcome)

/-- What comes of a step on a sink, and the sink after it. -/
def Step.perform (step : Step) (sink : Sink) : Response × Sink :=
  match step with
  | print a => (sink.printLine a).map .printed id
  | combine op a b => (.number (Scalar.combine op a b), sink)
  | sign op a => (.number (Scalar.signed op a), sink)
  | execute p => (conclude (p.execute sink)).map .ended id
  | run file source => (Reckon.run file source sink).map .ended id
  | runUnchecked source => (Reckon.runUnchecked source sink).map .ended id

/-- What comes of each step of a session, and the sink after it. -/
def performAll : List Step → Sink → List (Response × Sink)
  | [], _ => []
  | step :: steps, sink =>
    let result := step.perform sink
    result :: performAll steps result.2

end Reckon
