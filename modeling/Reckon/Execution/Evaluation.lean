/-
# The value of an expression

An operator between operands takes the value of its left operand first, then that of its right
operand, and then combines the two.  The first failure in this order is that of the whole.
Parentheses change nothing.

`Expr.eval` says this by recursion.  `Expr.evaluate` computes the same by a walk with two stacks:
one holds the tasks that are still to be done, the other the values that wait for their operator.
The nesting of an expression is then bounded by memory alone.  A step of the walk takes the next
task; it would be stuck if a value were missing or one were left over at the end, and
`Evaluation.finish_ofExpr` says that this does not happen.
-/
import Reckon.Execution.Error
import Reckon.Expr

namespace Reckon

/-- The value of an operator between two values; the place is that of the operator. -/
def Value.combine (op : Operator) (a b : Value) (p : Position) : Except RunError Value :=
  match Scalar.combine op a.scalar b.scalar with
  | .ok c => .ok (.computed c)
  | .error fault => .error ⟨.arithmetic fault, some p⟩

/-- The value of a sign in front of a value. -/
def Value.signed (op : Operator) (a : Value) : Except RunError Value :=
  match Scalar.signed op a.scalar with
  | .ok c => .ok (.computed c)
  | .error fault => .error ⟨.arithmetic fault, none⟩

namespace Expr

/-! ## By recursion -/

/-- The value of an expression, or its first failure. -/
def eval : Expr → Except RunError Value
  | int n _ => .ok (.literal (.int n))
  | float x _ => .ok (.literal (.float x))
  | binary op l r p => l.eval.bind fun a => r.eval.bind fun b => Value.combine op a b p
  | unary op e => e.eval.bind (Value.signed op)
  | group e => e.eval

end Expr

/-! ## By a walk -/

namespace Evaluation

/-- Something that is still to be done. -/
inductive Task where
  /-- To find the value of an expression. -/
  | enter (e : Expr)
  /-- To put an operator between the last two values. -/
  | combine (op : Operator) (position : Position)
  /-- To put a sign in front of the last value. -/
  | sign (op : Operator)

/-- A walk in progress. -/
structure State where
  /-- The tasks, the next one first. -/
  tasks : List Task
  /-- The values that no operator has taken yet, the last one first. -/
  values : List Value

/-- What comes of a step. -/
inductive Turn where
  /-- The walk goes on. -/
  | on (s : State)
  /-- The walk ends, with the value of the expression or with a failure. -/
  | over (result : Except RunError Value)
  /-- A value is missing, or one is left over. -/
  | stuck

/-- The walk goes on with the result of an operator, or ends with its failure. -/
def Turn.ofResult (tasks : List Task) (values : List Value) : Except RunError Value → Turn
  | .ok v => .on ⟨tasks, v :: values⟩
  | .error err => .over (.error err)

namespace State

/-- The beginning of a walk. -/
def ofExpr (e : Expr) : State := ⟨[.enter e], []⟩

/-- Does the next task. -/
def step : State → Turn
  | ⟨[], [v]⟩ => .over (.ok v)
  | ⟨[], _⟩ => .stuck
  | ⟨.enter (.int n _) :: tasks, values⟩ => .on ⟨tasks, .literal (.int n) :: values⟩
  | ⟨.enter (.float x _) :: tasks, values⟩ => .on ⟨tasks, .literal (.float x) :: values⟩
  | ⟨.enter (.binary op l r p) :: tasks, values⟩ =>
    .on ⟨.enter l :: .enter r :: .combine op p :: tasks, values⟩
  | ⟨.enter (.unary op e) :: tasks, values⟩ => .on ⟨.enter e :: .sign op :: tasks, values⟩
  | ⟨.enter (.group e) :: tasks, values⟩ => .on ⟨.enter e :: tasks, values⟩
  | ⟨.combine op p :: tasks, b :: a :: values⟩ => .ofResult tasks values (Value.combine op a b p)
  | ⟨.combine .. :: _, _⟩ => .stuck
  | ⟨.sign op :: tasks, a :: values⟩ => .ofResult tasks values (Value.signed op a)
  | ⟨.sign _ :: _, []⟩ => .stuck

end State

/-- The steps that a task takes, together with the tasks that it leads to. -/
def Task.steps : Task → Nat
  | enter e => e.steps
  | combine .. => 1
  | sign _ => 1

/-- The steps that a walk still takes if it does not fail. -/
def State.steps (s : State) : Nat := s.tasks.foldr (fun t n => t.steps + n) 0

theorem Turn.ofResult_eq_on {tasks : List Task} {values : List Value}
    {result : Except RunError Value} {s : State} (h : ofResult tasks values result = .on s) :
    s.tasks = tasks := by
  cases result <;> simp only [ofResult, on.injEq, reduceCtorEq] at h
  rw [← h]

/-- A step is one step less to be done. -/
theorem State.steps_of_step {s s' : State} (h : s.step = .on s') : s.steps = s'.steps + 1 := by
  unfold step at h
  split at h
  case h_8 | h_10 =>
    obtain rfl := Turn.ofResult_eq_on h
    simp only [steps, List.foldr_cons, Task.steps]
    omega
  all_goals
    simp only [Turn.on.injEq, reduceCtorEq] at h <;> subst h <;>
      simp only [steps, List.foldr_cons, Task.steps, Expr.steps] <;> omega

/-- What a walk ends with; nothing if it is stuck. -/
def State.finish (s : State) : Option (Except RunError Value) :=
  match h : s.step with
  | .on s' =>
    have := steps_of_step h
    s'.finish
  | .over result => some result
  | .stuck => none
termination_by s.steps

theorem State.finish_of_on {s s' : State} (h : s.step = .on s') : s.finish = s'.finish := by
  rw [finish]
  split <;> simp_all

theorem State.finish_of_over {s : State} {result : Except RunError Value}
    (h : s.step = .over result) : s.finish = some result := by
  rw [finish]
  split <;> simp_all

/-- Whatever is still to be done and whatever values wait, a walk that enters an expression goes
on with its value on top of them, or ends with its failure. -/
theorem finish_enter (e : Expr) (tasks : List Task) (values : List Value) :
    State.finish ⟨.enter e :: tasks, values⟩ =
      match e.eval with
      | .ok v => State.finish ⟨tasks, v :: values⟩
      | .error err => some (.error err) := by
  induction e generalizing tasks values with
  | int n p => rw [State.finish_of_on rfl]; rfl
  | float x p => rw [State.finish_of_on rfl]; rfl
  | binary op l r p ihl ihr =>
    rw [State.finish_of_on rfl, ihl, Expr.eval]
    cases l.eval with
    | error err => rfl
    | ok a =>
      simp only [Except.bind]
      rw [ihr]
      cases r.eval with
      | error err => rfl
      | ok b =>
        simp only
        cases h : Value.combine op a b p with
        | error err => exact State.finish_of_over (by rw [State.step, h, Turn.ofResult])
        | ok v => exact State.finish_of_on (by rw [State.step, h, Turn.ofResult])
  | unary op e ih =>
    rw [State.finish_of_on rfl, ih, Expr.eval]
    cases e.eval with
    | error err => rfl
    | ok a =>
      simp only [Except.bind]
      cases h : Value.signed op a with
      | error err => exact State.finish_of_over (by rw [State.step, h, Turn.ofResult])
      | ok v => exact State.finish_of_on (by rw [State.step, h, Turn.ofResult])
  | group e ih => rw [State.finish_of_on rfl, ih, Expr.eval]

/-- The walk through an expression ends with what the recursion gives. -/
@[simp] theorem finish_ofExpr (e : Expr) : (State.ofExpr e).finish = some e.eval := by
  rw [State.ofExpr, finish_enter]
  cases e.eval with
  | error err => rfl
  | ok v => exact State.finish_of_over rfl

end Evaluation

/-- The value of an expression, or its first failure. -/
def Expr.evaluate (e : Expr) : Except RunError Value :=
  (Evaluation.State.ofExpr e).finish.get (by simp)

/-- The walk gives the value that the recursion gives. -/
@[simp] theorem Expr.evaluate_eq_eval (e : Expr) : e.evaluate = e.eval := by
  simp [evaluate]

end Reckon
