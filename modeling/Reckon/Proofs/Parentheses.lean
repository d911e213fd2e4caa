/-
# Programs without parentheses

Running a program sees through parentheses, the check before it stops at them.  So a program and the
same program without its parentheses do the same on every sink, and the check finds at least as much
in the latter: to take parentheses away gives kinds to operands that had none, and an operator that
has an error has it still.  This is `Program.kindErrors_sublist_ungroup`.

What carries it is that kinds become known and never change: `Expr.typing_ungroup_fst`.
-/
import Mathlib.Data.List.Basic
import Reckon.Execution
import Reckon.Typing

namespace Reckon

/-- A statement without any parentheses. -/
def Stmt.ungroup : Stmt → Stmt
  | print e => print e.ungroup

/-- A program without any parentheses. -/
def Program.ungroup (p : Program) : Program := ⟨p.statements.map Stmt.ungroup⟩

/-! ## Running -/

lemma Expr.eval_ungroup (e : Expr) : e.ungroup.eval = e.eval := by
  induction e with
  | int n p => rfl
  | float x p => rfl
  | binary op l r p ihl ihr => rw [ungroup, eval, eval, ihl, ihr]
  | unary op e ih => rw [ungroup, eval, eval, ih]
  | group e ih => exact ih

lemma Stmt.execute_ungroup (s : Stmt) (sink : Sink) : s.ungroup.execute sink = s.execute sink := by
  obtain ⟨e⟩ := s
  simp only [ungroup, execute, Expr.evaluate_eq_eval, Expr.eval_ungroup]

lemma executeAll_ungroup (ss : List Stmt) (sink : Sink) :
    executeAll (ss.map Stmt.ungroup) sink = executeAll ss sink := by
  induction ss generalizing sink with
  | nil => rfl
  | cons s ss ih => simp only [List.map_cons, executeAll, Stmt.execute_ungroup, ih]

/-! ## The check -/

/-- What is known of `k` is known of `l` too. -/
def Kind.Extends (k l : Option Kind) : Prop := ∀ a, k = some a → l = some a

/-- An error stays when more kinds are known. -/
lemma KindError.between?_sublist {op : Operator} {k k' l l' : Option Kind} {p : Position}
    (hk : Kind.Extends k k') (hl : Kind.Extends l l') :
    (between? op k l p).toList.Sublist (between? op k' l' p).toList := by
  cases k with
  | none => exact List.nil_sublist _
  | some a =>
    cases l with
    | none => exact List.nil_sublist _
    | some b => rw [hk a rfl, hl b rfl]

namespace Expr

/-- Kinds that are known stay as they are. -/
lemma typing_ungroup_fst (e : Expr) : Kind.Extends e.typing.1 e.ungroup.typing.1 := by
  induction e with
  | int n p | float x p => exact fun _ h => h
  | binary op l r p ihl ihr => exact ihl
  | unary op e ih => exact fun _ h => h
  | group e ih => exact fun _ h => absurd h (by simp [typing])

lemma typing_snd_sublist_ungroup (e : Expr) : e.typing.2.Sublist e.ungroup.typing.2 := by
  induction e with
  | int n p | float x p => exact .refl _
  | binary op l r p ihl ihr =>
    exact (ihl.append ihr).append
      (KindError.between?_sublist l.typing_ungroup_fst r.typing_ungroup_fst)
  | unary op e ih => exact .refl _
  | group e ih => exact List.nil_sublist _

end Expr

/-- **Parentheses hide errors and change nothing else.**  A program and the same program without
its parentheses have the same result and the same output on every sink, and the errors that the
check finds in the former are among those that it finds in the latter, in the same order. -/
theorem Program.kindErrors_sublist_ungroup (p : Program) :
    (∀ sink, p.ungroup.execute sink = p.execute sink) ∧
      p.kindErrors.Sublist p.ungroup.kindErrors := by
  refine ⟨executeAll_ungroup p.statements, ?_⟩
  rw [kindErrors_eq, kindErrors_eq, ungroup, List.flatMap_map]
  induction p.statements with
  | nil => exact .refl _
  | cons s ss ih =>
    obtain ⟨e⟩ := s
    rw [List.flatMap_cons, List.flatMap_cons]
    exact e.typing_snd_sublist_ungroup.append ih

/-- The parentheses of `print (1) + 2.0;` hide the error. -/
example :
    let e : Expr := .binary .plus (.group (.int 1 ⟨1, 8⟩)) (.float 2 ⟨1, 13⟩) ⟨1, 11⟩
    let sum : Program := ⟨[.print e]⟩
    sum.kindErrors = [] ∧ sum.ungroup.kindErrors = [⟨.plus, .int, .float, ⟨1, 11⟩⟩] := by
  simp only [Program.kindErrors_eq]
  exact ⟨rfl, rfl⟩

end Reckon
