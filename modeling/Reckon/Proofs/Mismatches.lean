/-
# The errors of the check in closed form

The check walks through an expression with a stack of tasks and a stack of kinds.  What it reports
can be told without the walk: one error for each operator that lies under no sign and in no group
and whose operands have leading literals of different kinds, in postorder.  The kinds in an error
are those of the two literals.

A walk that took a kind from an empty stack would not stop, it would miss errors.  That this never
happens is an invariant of the walk.  `Task.Suffices` says of some tasks how many kinds they need
to be on the stack, and that in the end one is left; each step keeps it.
-/
import Mathlib.Logic.Relation
import Reckon.Proofs.Kinds

namespace Reckon

/-! ## The walk -/

namespace Typing

/-- Tasks that begin with `n` kinds on the stack always find two where they compare, and one is
left when all of them are done. -/
def Task.Suffices : List Task → ℕ → Prop
  | [], n => n = 1
  | .enter _ :: tasks, n => Suffices tasks (n + 1)
  | .compare .. :: tasks, n => 2 ≤ n ∧ Suffices tasks (n - 1)

namespace State

/-- One state follows another. -/
def Leads (s s' : State) : Prop := s.step = some s'

/-- A state is reached from another in any number of steps. -/
abbrev Reaches : State → State → Prop := Relation.ReflTransGen Leads

/-- The kinds on the stack are enough for the tasks. -/
def Balanced (s : State) : Prop := Task.Suffices s.tasks s.kinds.length

lemma Balanced.of_leads {s s' : State} (hs : s.Balanced) (h : s.Leads s') : s'.Balanced := by
  obtain ⟨tasks, kinds, found⟩ := s
  cases tasks with
  | nil => exact absurd h (by simp [Leads, step])
  | cons task tasks =>
    cases task with
    | enter e =>
      have hsuffices : Task.Suffices tasks (kinds.length + 1) := hs
      cases e with
      | binary op l r p =>
        -- the operands leave two kinds, of which the operator leaves one
        obtain rfl := Option.some.inj h
        exact ⟨Nat.le_add_left 2 _, hsuffices⟩
      | int | float | unary | group =>
        obtain rfl := Option.some.inj h
        exact hsuffices
    | compare op p =>
      obtain ⟨hle, hsuffices⟩ : 2 ≤ kinds.length ∧ Task.Suffices tasks (kinds.length - 1) := hs
      obtain rfl := Option.some.inj h
      have hlength : kinds.tail.tail.length + 1 = kinds.length - 1 := by
        simp only [List.length_tail]
        omega
      have hgoal : Task.Suffices tasks (kinds.tail.tail.length + 1) := by rwa [hlength]
      exact hgoal

lemma Balanced.of_reaches {s s' : State} (hs : s.Balanced) (h : s.Reaches s') : s'.Balanced := by
  induction h with
  | refl => exact hs
  | tail _ hstep ih => exact ih.of_leads hstep

/-- Two kinds wait where the next task is to compare them. -/
lemma Balanced.two_le {s : State} {op : Operator} {p : Position} {tasks : List Task}
    (hs : s.Balanced) (h : s.tasks = .compare op p :: tasks) : 2 ≤ s.kinds.length := by
  rw [Balanced, h] at hs
  exact hs.1

/-- One kind is left at the end. -/
lemma Balanced.length_eq_one {s : State} (hs : s.Balanced) (h : s.tasks = []) :
    s.kinds.length = 1 := by
  rw [Balanced, h] at hs
  exact hs

/-- A walk gets to its end. -/
lemma reaches_finish (s : State) : s.Reaches s.finish := by
  fun_induction finish s with
  | case1 s s' hstep _ ih => exact .head hstep ih
  | case2 s hstep => exact .refl

end State

/-- A walk that begins with one expression ends with the kind of its leading literal, if it has
one. -/
lemma finish_expr (e : Expr) (found : Array KindError) :
    State.finish ⟨[.enter e], [], found⟩ =
      ⟨[], [e.leading?.map Scalar.kind], e.kindErrors found⟩ := by
  rw [finish_enter, State.finish_of_tasks_nil, Expr.kindErrors_eq, Expr.typing_fst]

end Typing

/-! ## The errors -/

namespace Site

/-- A site has an error just if it is an exposed operator whose operands have leading literals of
different kinds, and the error tells these kinds. -/
lemma kindError?_eq_some_iff {s : Site} {err : KindError} :
    s.kindError? = some err ↔ ∃ op l r p a b, s = ⟨.binary op l r p, true⟩ ∧
      l.leading? = some a ∧ r.leading? = some b ∧ a.kind ≠ b.kind ∧
      err = ⟨op, a.kind, b.kind, p⟩ := by
  constructor
  · exact kindError?_eq_some
  · rintro ⟨op, l, r, p, a, b, rfl, ha, hb, hne, rfl⟩
    simp [kindError?, ha, hb, hne]

/-- The kinds in the error of a site are those of literals. -/
lemma ne_any_of_kindError {s : Site} {err : KindError} (h : s.kindError? = some err) :
    err.left ≠ .any ∧ err.right ≠ .any := by
  obtain ⟨op, l, r, p, a, b, -, -, -, -, rfl⟩ := kindError?_eq_some h
  exact ⟨a.kind_ne_any, b.kind_ne_any⟩

end Site

/-- **The errors of a program.**

* They are those of its sites, statement by statement and in postorder within a statement.
* A site has an error just if it is an operator under no sign and in no group whose operands have
  leading literals of different kinds.  The error has the operator, these kinds and the place.
* No error tells the kind `any`.
* The walk through an expression ends with these errors.  Wherever it compares there are two kinds
  on its stack, and when nothing is left to do there is one. -/
theorem Program.kindErrors_closed_form :
    (∀ p : Program, p.kindErrors =
      p.statements.flatMap fun s => (s.expr.sites true).filterMap Site.kindError?) ∧
    (∀ (s : Site) (err : KindError), s.kindError? = some err ↔
      ∃ op l r p a b, s = ⟨.binary op l r p, true⟩ ∧ l.leading? = some a ∧
        r.leading? = some b ∧ a.kind ≠ b.kind ∧ err = ⟨op, a.kind, b.kind, p⟩) ∧
    (∀ p : Program, ∀ err ∈ p.kindErrors, err.left ≠ .any ∧ err.right ≠ .any) ∧
    (∀ (e : Expr) (found : Array KindError),
      let start : Typing.State := ⟨[.enter e], [], found⟩
      start.Reaches ⟨[], [e.leading?.map Scalar.kind], e.kindErrors found⟩ ∧
      e.kindErrors found =
        found ++ ((e.sites true).filterMap Site.kindError?).toArray ∧
      ∀ s, start.Reaches s →
        (∀ op p tasks, s.tasks = .compare op p :: tasks → 2 ≤ s.kinds.length) ∧
        (s.tasks = [] → s.kinds.length = 1)) := by
  refine ⟨fun p => ?_, fun _ _ => Site.kindError?_eq_some_iff, ?_, ?_⟩
  · rw [kindErrors_eq_filterMap, sites, Stmt.allSites, List.filterMap_flatMap]
  · intro p err herr
    rw [kindErrors_eq_filterMap] at herr
    obtain ⟨s, -, hs⟩ := List.mem_filterMap.mp herr
    exact Site.ne_any_of_kindError hs
  · intro e found start
    have hstart : start.Balanced := rfl
    refine ⟨?_, ?_, fun s hs => ?_⟩
    · rw [← Typing.finish_expr]
      exact Typing.State.reaches_finish start
    · rw [Expr.kindErrors_eq, Expr.typing_snd]
    · have hbalanced := hstart.of_reaches hs
      exact ⟨fun op p tasks => hbalanced.two_le, hbalanced.length_eq_one⟩

end Reckon
