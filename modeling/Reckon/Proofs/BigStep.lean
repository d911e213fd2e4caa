/-
# Evaluation by rules

The value of an expression and the effect of a program are given here by rules, with no walk and
no stack.  `Expr.Evaluates` has one rule for each way in which a node gets a value or a failure:
the left operand comes first, the right one is looked at only if the left one has a value, and the
operator is applied only if both have one.  `Runs` has the rules for statements, and tells the
lines that they print.

The walk of `Reckon.Evaluation` is compared with the rules step by step.  Its states are related by
`Evaluation.State.Reaches`.  A walk that enters an expression ends, and none of its states is
stuck: `Evaluation.State.exists_reaches_over` and `Evaluation.State.step_ne_stuck`.
-/
import Mathlib.Data.List.Forall2
import Mathlib.Logic.Relation
import Reckon.Proofs.Sites

namespace Reckon

/-! ## The rules for expressions -/

/-- The value of an expression, or its failure, by rules. -/
inductive Expr.Evaluates : Expr → Except RunError Value → Prop where
  | int {n : Int32} {p : Position} : Evaluates (.int n p) (.ok ⟨.int, .int n⟩)
  | float {x : Float32} {p : Position} : Evaluates (.float x p) (.ok ⟨.float, .float x⟩)
  /-- The operator is applied after both operands, and the kind of its result is open. -/
  | binary {op : Operator} {l r : Expr} {p : Position} {a b : Value} {c : Scalar}
      (left : Evaluates l (.ok a)) (right : Evaluates r (.ok b))
      (applied : Scalar.combine op a.scalar b.scalar = .ok c) :
      Evaluates (.binary op l r p) (.ok ⟨.any, c⟩)
  /-- A failing operator between operands has its place. -/
  | binary_fails {op : Operator} {l r : Expr} {p : Position} {a b : Value} {fault : Fault}
      (left : Evaluates l (.ok a)) (right : Evaluates r (.ok b))
      (fails : Scalar.combine op a.scalar b.scalar = .error fault) :
      Evaluates (.binary op l r p) (.error ⟨.arithmetic fault, some p⟩)
  /-- After a failure of the left operand the right one is not looked at. -/
  | left_fails {op : Operator} {l r : Expr} {p : Position} {err : RunError}
      (left : Evaluates l (.error err)) : Evaluates (.binary op l r p) (.error err)
  | right_fails {op : Operator} {l r : Expr} {p : Position} {a : Value} {err : RunError}
      (left : Evaluates l (.ok a)) (right : Evaluates r (.error err)) :
      Evaluates (.binary op l r p) (.error err)
  | unary {op : Operator} {e : Expr} {a : Value} {c : Scalar} (operand : Evaluates e (.ok a))
      (applied : Scalar.signed op a.scalar = .ok c) : Evaluates (.unary op e) (.ok ⟨.any, c⟩)
  /-- A failing sign has no place. -/
  | unary_fails {op : Operator} {e : Expr} {a : Value} {fault : Fault}
      (operand : Evaluates e (.ok a)) (fails : Scalar.signed op a.scalar = .error fault) :
      Evaluates (.unary op e) (.error ⟨.arithmetic fault, none⟩)
  | operand_fails {op : Operator} {e : Expr} {err : RunError}
      (operand : Evaluates e (.error err)) : Evaluates (.unary op e) (.error err)
  /-- Parentheses change nothing. -/
  | group {e : Expr} {result : Except RunError Value} (inner : Evaluates e result) :
      Evaluates (.group e) result

namespace Expr

/-- The recursion follows the rules. -/
lemma evaluates_eval (e : Expr) : e.Evaluates e.eval := by
  induction e with
  | int n p => exact .int
  | float x p => exact .float
  | binary op l r p ihl ihr =>
    cases hl : l.eval with
    | error err =>
      rw [hl] at ihl
      simpa [eval, hl, Except.bind] using Evaluates.left_fails ihl
    | ok a =>
      rw [hl] at ihl
      cases hr : r.eval with
      | error err =>
        rw [hr] at ihr
        simpa [eval, hl, hr, Except.bind] using Evaluates.right_fails ihl ihr
      | ok b =>
        rw [hr] at ihr
        rw [eval_binary hl hr, Value.combine]
        cases hc : Scalar.combine op a.scalar b.scalar with
        | ok c => exact .binary ihl ihr hc
        | error fault => exact .binary_fails ihl ihr hc
  | unary op e ih =>
    cases he : e.eval with
    | error err =>
      rw [he] at ih
      simpa [eval, he, Except.bind] using Evaluates.operand_fails ih
    | ok a =>
      rw [he] at ih
      rw [eval_unary he, Value.signed]
      cases hc : Scalar.signed op a.scalar with
      | ok c => exact .unary ih hc
      | error fault => exact .unary_fails ih hc
  | group e ih => exact .group ih

/-- The rules give nothing else than the recursion. -/
lemma Evaluates.eval_eq {e : Expr} {result : Except RunError Value} (h : e.Evaluates result) :
    e.eval = result := by
  induction h with
  | int => rfl
  | float => rfl
  | binary _ _ applied ihl ihr =>
    rw [eval_binary ihl ihr, Value.combine, applied]
    rfl
  | binary_fails _ _ fails ihl ihr => rw [eval_binary ihl ihr, Value.combine, fails]
  | left_fails _ ihl => simp [eval, ihl, Except.bind]
  | right_fails _ _ ihl ihr => simp [eval, ihl, ihr, Except.bind]
  | unary _ applied ih =>
    rw [eval_unary ih, Value.signed, applied]
    rfl
  | unary_fails _ fails ih => rw [eval_unary ih, Value.signed, fails]
  | operand_fails _ ih => simp [eval, ih, Except.bind]
  | group _ ih => exact ih

theorem evaluates_iff {e : Expr} {result : Except RunError Value} :
    e.Evaluates result ↔ e.eval = result :=
  ⟨Evaluates.eval_eq, fun h => h ▸ evaluates_eval e⟩

/-- The kind that the value of an expression is tagged with: that of the literal inside all
parentheses, or `any` if there is an operator or a sign. -/
def tag : Expr → Kind
  | int .. => .int
  | float .. => .float
  | binary .. => .any
  | unary .. => .any
  | group e => e.tag

lemma tag_of_eval {e : Expr} {v : Value} (h : e.eval = .ok v) : v.tag = e.tag := by
  have hrules : e.Evaluates (.ok v) := evaluates_iff.mpr h
  clear h
  generalize hresult : Except.ok v = result at hrules
  induction hrules with
  | int | float | binary | unary =>
    obtain rfl := Except.ok.inj hresult
    rfl
  | binary_fails | left_fails | right_fails | unary_fails | operand_fails =>
    exact absurd hresult (by simp)
  | group _ ih => exact ih hresult

end Expr

/-! ## The rules for statements -/

/-- The line that is printed for a value. -/
def Value.line (v : Value) : String := v.scalar.text ++ "\n"

/-- The lines that statements print, and how they end. -/
inductive Runs : List Stmt → List String → Except RunError Unit → Prop where
  | nil : Runs [] [] (.ok ())
  /-- A statement whose expression has a value prints a line, and the next one follows. -/
  | print {e : Expr} {v : Value} {ss : List Stmt} {lines : List String}
      {result : Except RunError Unit} (value : e.Evaluates (.ok v)) (rest : Runs ss lines result) :
      Runs (.print e :: ss) (v.line :: lines) result
  /-- A statement whose expression fails prints nothing, and none follows. -/
  | fails {e : Expr} {err : RunError} {ss : List Stmt} (value : e.Evaluates (.error err)) :
      Runs (.print e :: ss) [] (.error err)

namespace Runs

lemma exists_runs (ss : List Stmt) : ∃ lines result, Runs ss lines result := by
  induction ss with
  | nil => exact ⟨_, _, .nil⟩
  | cons s ss ih =>
    obtain ⟨e⟩ := s
    obtain ⟨lines, result, hrest⟩ := ih
    cases he : e.eval with
    | ok v => exact ⟨_, _, .print (Expr.evaluates_iff.mpr he) hrest⟩
    | error err => exact ⟨_, _, .fails (Expr.evaluates_iff.mpr he)⟩

/-- On a sink that takes everything, statements write the lines and end as the rules say. -/
lemma executeAll_eq {ss : List Stmt} {lines : List String} {result : Except RunError Unit}
    (h : Runs ss lines result) (written : String) (refusal : Refusal) :
    executeAll ss ⟨written, none, refusal⟩ =
      (result, ⟨written ++ String.join lines, none, refusal⟩) := by
  induction h generalizing written with
  | nil => simp [executeAll]
  | print value rest ih =>
    rename_i e v ss lines result
    have hstep : Stmt.execute (.print e) ⟨written, none, refusal⟩ =
        (.ok (), ⟨written ++ v.line, none, refusal⟩) := by
      simp [Stmt.execute, value.eval_eq, Sink.printLine, Value.line]
    rw [executeAll, hstep]
    simp only [ih, String.join_cons, String.append_assoc]
  | fails value => simp [executeAll, Stmt.execute, value.eval_eq]

/-- Statements that fail do so at one statement, after as many lines as there are statements
before it. -/
lemma error_iff {ss : List Stmt} {lines : List String} {err : RunError} :
    Runs ss lines (.error err) ↔ ∃ k e values, ss[k]? = some (.print e) ∧
      List.Forall₂ (fun s v => s.expr.Evaluates (.ok v)) (ss.take k) values ∧
      e.Evaluates (.error err) ∧ lines = values.map Value.line := by
  constructor
  · intro h
    generalize hresult : Except.error err = result at h
    induction h with
    | nil => exact absurd hresult (by simp)
    | print value rest ih =>
      obtain ⟨k, e, values, hk, hvalues, hfails, rfl⟩ := ih hresult
      exact ⟨k + 1, e, _ :: values, hk, .cons value hvalues, hfails, rfl⟩
    | fails value =>
      obtain rfl := Except.error.inj hresult
      exact ⟨0, _, [], rfl, .nil, value, rfl⟩
  · rintro ⟨k, e, values, hk, hvalues, hfails, rfl⟩
    induction k generalizing ss values with
    | zero =>
      obtain ⟨s, ss, rfl⟩ : ∃ s ss', ss = s :: ss' := by
        cases ss with
        | nil => simp at hk
        | cons s ss => exact ⟨s, ss, rfl⟩
      obtain rfl : s = .print e := by simpa using hk
      cases hvalues
      exact .fails hfails
    | succ k ih =>
      cases ss with
      | nil => simp at hk
      | cons s ss =>
        cases hvalues with
        | cons value hvalues => exact .print value (ih _ hk hvalues)

end Runs

/-! ## The walk -/

namespace Evaluation.State

/-- One state follows another. -/
def Leads (s s' : State) : Prop := s.step = .on s'

/-- A state is reached from another in any number of steps. -/
abbrev Reaches : State → State → Prop := Relation.ReflTransGen Leads

/-- What a walk ends with does not change on the way. -/
lemma finish_eq_of_reaches {s s' : State} (h : s.Reaches s') : s.finish = s'.finish := by
  induction h with
  | refl => rfl
  | tail _ hstep ih => exact ih.trans (finish_of_on hstep)

/-- A walk that ends with a result gets to a state whose next step is the last one and gives it. -/
lemma exists_reaches_over {s : State} {result : Except RunError Value}
    (h : s.finish = some result) : ∃ s', s.Reaches s' ∧ s'.step = .over result := by
  fun_induction finish s with
  | case1 s s' hstep _ ih =>
    obtain ⟨t, hreach, hover⟩ := ih h
    exact ⟨t, .head hstep hreach, hover⟩
  | case2 s result' hstep =>
    obtain rfl := Option.some.inj h
    exact ⟨s, .refl, hstep⟩
  | case3 s hstep => exact absurd h (by simp)

lemma finish_of_stuck {s : State} (h : s.step = .stuck) : s.finish = none := by
  rw [finish]
  split <;> simp_all

/-- A walk that ends with a result is stuck nowhere. -/
lemma step_ne_stuck {s s' : State} {result : Except RunError Value}
    (h : s.finish = some result) (hreach : s.Reaches s') : s'.step ≠ .stuck := by
  intro hstuck
  rw [finish_eq_of_reaches hreach, finish_of_stuck hstuck] at h
  exact absurd h (by simp)

end Evaluation.State

/-! ## Programs -/

/-- **A program has the result and the output that the rules give it.**  With a sink that takes
everything:

* the result and what is written are those of the rules;
* a program that fails does so at one statement, with the first failure among the sites of its
  expression, after the lines of the statements before it and nothing else;
* the walk through any expression ends and is stuck nowhere, its result is that of the rules, a
  failure is that of the first site at which an operator fails, and a value is tagged by what is
  inside all parentheses. -/
theorem Program.execute_runs (p : Program) (written : String) (refusal : Refusal) :
    (∀ result sink, p.execute ⟨written, none, refusal⟩ = (result, sink) ↔
      ∃ lines, Runs p.statements lines result ∧
        sink = ⟨written ++ String.join lines, none, refusal⟩) ∧
    (∀ err sink, p.execute ⟨written, none, refusal⟩ = (.error err, sink) ↔
      ∃ k e values i, p.statements[k]? = some (.print e) ∧
        List.Forall₂ (fun s v => s.expr.Evaluates (.ok v)) (p.statements.take k) values ∧
        FailsAt (e.sites true) i err ∧
        sink = ⟨written ++ String.join (values.map Value.line), none, refusal⟩) ∧
    (∀ e : Expr,
      (∃ s, (Evaluation.State.ofExpr e).Reaches s ∧ s.step = .over e.evaluate) ∧
      (∀ s, (Evaluation.State.ofExpr e).Reaches s → s.step ≠ .stuck) ∧
      (∀ result, e.evaluate = result ↔ e.Evaluates result) ∧
      (∀ err, e.evaluate = .error err ↔ ∃ i, FailsAt (e.sites true) i err) ∧
      ∀ v, e.evaluate = .ok v → v.tag = e.tag) := by
  have hruns : ∀ result sink, p.execute ⟨written, none, refusal⟩ = (result, sink) ↔
      ∃ lines, Runs p.statements lines result ∧
        sink = ⟨written ++ String.join lines, none, refusal⟩ := by
    intro result sink
    constructor
    · intro h
      obtain ⟨lines, result', hrules⟩ := Runs.exists_runs p.statements
      have heq := h.symm.trans (hrules.executeAll_eq written refusal)
      obtain ⟨rfl, rfl⟩ := Prod.mk.inj heq
      exact ⟨lines, hrules, rfl⟩
    · rintro ⟨lines, hrules, rfl⟩
      exact hrules.executeAll_eq written refusal
  refine ⟨hruns, fun err sink => ?_, fun e => ?_⟩
  · rw [hruns]
    constructor
    · rintro ⟨lines, hrules, rfl⟩
      obtain ⟨k, e, values, hk, hvalues, hfails, rfl⟩ := Runs.error_iff.mp hrules
      obtain ⟨i, hi⟩ := Expr.exists_failsAt true hfails.eval_eq
      exact ⟨k, e, values, i, hk, hvalues, hi, rfl⟩
    · rintro ⟨k, e, values, i, hk, hvalues, hi, rfl⟩
      have hfails : e.Evaluates (.error err) :=
        Expr.evaluates_iff.mpr ((Expr.eval_eq_error_iff true).mpr ⟨i, hi⟩)
      exact ⟨_, Runs.error_iff.mpr ⟨k, e, values, hk, hvalues, hfails, rfl⟩, rfl⟩
  · have hfinish : (Evaluation.State.ofExpr e).finish = some e.evaluate := by simp
    refine ⟨Evaluation.State.exists_reaches_over hfinish,
      fun s => Evaluation.State.step_ne_stuck hfinish, ?_⟩
    rw [e.evaluate_eq_eval]
    exact ⟨fun result => Expr.evaluates_iff.symm, fun err => Expr.eval_eq_error_iff true,
      fun v => Expr.tag_of_eval⟩

end Reckon
