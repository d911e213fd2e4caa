/-
# What stops a program

A program stops when arithmetic fails or when its output is refused.  A failing operator between
operands has a place; a failing sign and refused output have none.
-/
import Reckon.Position
import Reckon.Scalar
import Reckon.Sink

namespace Reckon

namespace RunError

/-- The causes of errors. -/
inductive Cause where
  /-- Arithmetic fails. -/
  | arithmetic (fault : Fault)
  /-- The output is not taken. -/
  | output (refusal : Refusal)
deriving DecidableEq, Repr

/-- The text of a cause. -/
def Cause.message : Cause → String
  | arithmetic fault => fault.message
  | output refusal => "failed to write output: " ++ refusal.message

end RunError

/-- An error that stops a running program. -/
structure RunError where
  /-- Why the program stops. -/
  cause : RunError.Cause
  /-- The place of the operator that fails. -/
  position : Option Position
deriving DecidableEq, Repr

/-- The text of an error. -/
def RunError.message (e : RunError) : String :=
  let place :=
    match e.position with
    | some p => " at line " ++ toString p.line ++ ", col " ++ toString p.column
    | none => ""
  "runtime error" ++ place ++ ": " ++ e.cause.message

end Reckon
