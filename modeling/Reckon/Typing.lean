/-
# Kinds of operands

Before a program runs, the kinds of its operands are compared where they can be read off.  The
kind of a literal is known; an operator between operands has the kind of its left operand; of a
sign and of a group nothing is known, and what is inside them is not looked at.  An operator whose
operands have known kinds that differ is an error.  It still has the kind of its left operand, so
that an operator further up is compared with that.

`Expr.typing` says this by recursion.  `Expr.kindErrors` computes the errors by a walk with two
stacks, one of tasks that are still to be done and one of kinds that wait for their operator.  A
stack without a kind would count as an operand of which nothing is known.
-/
import Reckon.Expr

namespace Reckon

/-- An operator whose operands are of different kinds. -/
structure KindError where
  op : Operator
  /-- The kind of the left operand. -/
  left : Kind
  /-- The kind of the right operand. -/
  right : Kind
  /-- The place of the operator. -/
  position : Position
deriving DecidableEq, Repr

/-- The text of an error. -/
def KindError.message (e : KindError) : String :=
  "Type Error: unsupported operand type(s) for " ++ e.op.label ++ ": '" ++ e.left.label ++ "' and '"
    ++ e.right.label ++ "'"

/-- The error of an operator, if the kinds of its operands are known and differ. -/
def KindError.between? (op : Operator) (left right : Option Kind) (p : Position) :
    Option KindError :=
  match left, right with
  | some l, some r => if l = r then none else some ⟨op, l, r, p⟩
  | _, _ => none

namespace Expr

/-! ## By recursion -/

/-- The kind of an expression, if it is known, and the errors in it, from the first operator that
is applied to the last. -/
def typing : Expr → Option Kind × List KindError
  | int .. => (some .int, [])
  | float .. => (some .float, [])
  | binary op l r p =>
    let (kl, el) := l.typing
    let (kr, er) := r.typing
    (kl, el ++ er ++ (KindError.between? op kl kr p).toList)
  | unary .. => (none, [])
  | group _ => (none, [])

end Expr

/-! ## By a walk -/

namespace Typing

/-- Something that is still to be done. -/
inductive Task where
  /-- To find the kind of an expression. -/
  | enter (e : Expr)
  /-- To compare the last two kinds. -/
  | compare (op : Operator) (position : Position)

/-- A walk in progress. -/
structure State where
  /-- The tasks, the next one first. -/
  tasks : List Task
  /-- The kinds, as far as they are known, that no operator has taken yet, the last one first. -/
  kinds : List (Option Kind)
  /-- The errors found so far. -/
  found : Array KindError

/-- The errors `found`, and one more if there is one. -/
def record (found : Array KindError) : Option KindError → Array KindError
  | some e => found.push e
  | none => found

namespace State

/-- Does the next task; nothing when there is none. -/
def step : State → Option State
  | ⟨[], _, _⟩ => none
  | ⟨.enter (.int ..) :: tasks, kinds, found⟩ => some ⟨tasks, some .int :: kinds, found⟩
  | ⟨.enter (.float ..) :: tasks, kinds, found⟩ => some ⟨tasks, some .float :: kinds, found⟩
  | ⟨.enter (.binary op l r p) :: tasks, kinds, found⟩ =>
    some ⟨.enter l :: .enter r :: .compare op p :: tasks, kinds, found⟩
  | ⟨.enter (.unary ..) :: tasks, kinds, found⟩ => some ⟨tasks, none :: kinds, found⟩
  | ⟨.enter (.group _) :: tasks, kinds, found⟩ => some ⟨tasks, none :: kinds, found⟩
  | ⟨.compare op p :: tasks, kinds, found⟩ =>
    let right := kinds.head?.join
    let left := kinds.tail.head?.join
    some ⟨tasks, left :: kinds.tail.tail, record found (KindError.between? op left right p)⟩

end State

/-- A bound on the steps that a task takes, together with the tasks that it leads to. -/
def Task.steps : Task → Nat
  | enter e => e.steps
  | compare .. => 1

/-- A bound on the steps that a walk still takes. -/
def State.steps (s : State) : Nat := s.tasks.foldr (fun t n => t.steps + n) 0

theorem State.steps_lt_of_step {s s' : State} (h : s.step = some s') : s'.steps < s.steps := by
  unfold step at h
  split at h <;> simp only [Option.some.injEq, reduceCtorEq] at h <;> subst h <;>
    simp only [steps, List.foldr_cons, Task.steps, Expr.steps] <;> omega

/-- The end of a walk. -/
def State.finish (s : State) : State :=
  match h : s.step with
  | some s' =>
    have := steps_lt_of_step h
    s'.finish
  | none => s
termination_by s.steps

theorem State.finish_of_step {s s' : State} (h : s.step = some s') : s.finish = s'.finish := by
  rw [finish]
  split <;> simp_all

theorem State.finish_of_tasks_nil (kinds : List (Option Kind)) (found : Array KindError) :
    finish ⟨[], kinds, found⟩ = ⟨[], kinds, found⟩ := by
  rw [finish]
  rfl

/-- Whatever is still to be done and whatever kinds wait, a walk that enters an expression goes
on with its kind on top of them, the errors in it being found. -/
theorem finish_enter (e : Expr) (tasks : List Task) (kinds : List (Option Kind))
    (found : Array KindError) :
    State.finish ⟨.enter e :: tasks, kinds, found⟩ =
      State.finish ⟨tasks, e.typing.1 :: kinds, found ++ e.typing.2.toArray⟩ := by
  induction e generalizing tasks kinds found with
  | int n p => rw [State.finish_of_step rfl, Expr.typing]; simp
  | float x p => rw [State.finish_of_step rfl, Expr.typing]; simp
  | binary op l r p ihl ihr =>
    rw [State.finish_of_step rfl, ihl, ihr, State.finish_of_step rfl]
    simp only [Expr.typing, List.head?_cons, List.tail_cons, Option.join_some]
    cases KindError.between? op l.typing.1 r.typing.1 p <;> simp [record]
  | unary op e ih => rw [State.finish_of_step rfl, Expr.typing]; simp
  | group e ih => rw [State.finish_of_step rfl, Expr.typing]; simp

end Typing

/-- The errors in an expression, after those found already. -/
def Expr.kindErrors (e : Expr) (found : Array KindError) : Array KindError :=
  (Typing.State.finish ⟨[.enter e], [], found⟩).found

theorem Expr.kindErrors_eq (e : Expr) (found : Array KindError) :
    e.kindErrors found = found ++ e.typing.2.toArray := by
  rw [kindErrors, Typing.finish_enter, Typing.State.finish_of_tasks_nil]

/-- The errors in a program, in the order in which its operators are applied. -/
def Program.kindErrors (p : Program) : List KindError :=
  (p.statements.foldl (fun found s => match s with | .print e => e.kindErrors found) #[]).toList

theorem Program.kindErrors_eq (p : Program) :
    p.kindErrors = p.statements.flatMap fun | .print e => e.typing.2 := by
  have h (ss : List Stmt) (found : Array KindError) :
      (ss.foldl (fun found s => match s with | .print e => e.kindErrors found) found).toList =
        found.toList ++ ss.flatMap fun | .print e => e.typing.2 := by
    induction ss generalizing found with
    | nil => simp
    | cons s ss ih => rw [List.foldl_cons, ih]; simp [Expr.kindErrors_eq]
  rw [kindErrors, h, Array.toList_empty, List.nil_append]

end Reckon
