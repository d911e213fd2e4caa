/-
# The order of evaluation

A site is an occurrence of a node in a program.  The sites of an expression are listed in
postorder: those of the left operand, those of the right operand, then the operator.  This is the
order in which the operators are applied, and the sites of a program are those of its statements
one after the other, so that "earlier" is an order of numbers.  A site also records whether a sign
or a group lies above it, since this decides whether its kinds are compared.

`FailsAt sites i err` says that number `i` is the first site at which an operator fails, and that
`err` is how it fails.  The main statements are `Expr.eval_eq_error_iff`: an expression fails
exactly as the first of its sites does, and `Program.output_or_failsAt_of_execute` with its converse
for a sink that takes everything, `Program.execute_eq_error_iff`.
-/
import Mathlib.Tactic.Common
import Reckon.Execution

namespace Reckon

/-! ## Sites -/

/-- An occurrence of a node in a program. -/
structure Site where
  /-- The expression that has the node at its root. -/
  tree : Expr
  /-- Whether the node lies under no sign and in no group. -/
  exposed : Bool

/-- The sites of an expression in postorder, when the expression itself is exposed or is not. -/
def Expr.sites (exposed : Bool) : Expr → List Site
  | int n p => [⟨int n p, exposed⟩]
  | float x p => [⟨float x p, exposed⟩]
  | binary op l r p => l.sites exposed ++ r.sites exposed ++ [⟨binary op l r p, exposed⟩]
  | unary op e => e.sites false ++ [⟨unary op e, exposed⟩]
  | group e => e.sites false ++ [⟨group e, exposed⟩]

/-- The sites of statements in the order of evaluation. -/
def Stmt.allSites (ss : List Stmt) : List Site := ss.flatMap fun s => s.expr.sites true

/-- The sites of a program in the order of evaluation. -/
def Program.sites (p : Program) : List Site := Stmt.allSites p.statements

@[simp] lemma Stmt.allSites_nil : allSites [] = [] := rfl

@[simp] lemma Stmt.allSites_cons (s : Stmt) (ss : List Stmt) :
    allSites (s :: ss) = s.expr.sites true ++ allSites ss := rfl

/-! ## The first failure -/

/-- An expression has a value. -/
def Expr.HasValue (e : Expr) : Prop := ∃ v, e.eval = .ok v

/-- The operands of an expression have values, on which the operator at its root fails.  A failing
operator between operands has its place in the error, a failing sign has none. -/
inductive Expr.Raises : Expr → RunError → Prop where
  | binary {op : Operator} {l r : Expr} {p : Position} {a b : Value} {fault : Fault}
      (left : l.eval = .ok a) (right : r.eval = .ok b)
      (fails : Scalar.combine op a.scalar b.scalar = .error fault) :
      Raises (.binary op l r p) ⟨.arithmetic fault, some p⟩
  | unary {op : Operator} {e : Expr} {a : Value} {fault : Fault} (operand : e.eval = .ok a)
      (fails : Scalar.signed op a.scalar = .error fault) :
      Raises (.unary op e) ⟨.arithmetic fault, none⟩

/-- Of all sites in a list, number `i` is the first at which an operator fails, and it fails with
the error `err`. -/
structure FailsAt (sites : List Site) (i : ℕ) (err : RunError) : Prop where
  /-- There is a site with this number, and it fails. -/
  raises : ∃ s, sites[i]? = some s ∧ s.tree.Raises err
  /-- The sites before it have values. -/
  earlier : ∀ j < i, ∀ s, sites[j]? = some s → s.tree.HasValue

/-- An expression whose root fails has no value but this failure. -/
lemma Expr.Raises.eval_eq {e : Expr} {err : RunError} (h : e.Raises err) :
    e.eval = .error err := by
  cases h with
  | binary left right fails => simp [eval, left, right, Except.bind, Value.combine, fails]
  | unary operand fails => simp [eval, operand, Except.bind, Value.signed, fails]

lemma Expr.Raises.not_hasValue {e : Expr} {err : RunError} (h : e.Raises err) :
    ¬ e.HasValue := by
  rintro ⟨v, hv⟩
  rw [h.eval_eq] at hv
  exact absurd hv (by simp)

namespace FailsAt

variable {xs ys : List Site} {i j : ℕ} {err err' : RunError}

/-- Sites behind the one that fails do not matter. -/
lemma append_left (h : FailsAt xs i err) (ys : List Site) : FailsAt (xs ++ ys) i err := by
  obtain ⟨⟨s, hs, hraises⟩, hearlier⟩ := h
  have hlt : i < xs.length := (List.getElem?_eq_some_iff.mp hs).1
  refine ⟨⟨s, ?_, hraises⟩, ?_⟩
  · rw [List.getElem?_append_left hlt, hs]
  · intro j hj t ht
    rw [List.getElem?_append_left (Nat.lt_trans hj hlt)] at ht
    exact hearlier j hj t ht

/-- Sites with values in front of the one that fails shift its number. -/
lemma append_right (h : FailsAt ys j err) (hxs : ∀ s ∈ xs, s.tree.HasValue) :
    FailsAt (xs ++ ys) (xs.length + j) err := by
  obtain ⟨⟨s, hs, hraises⟩, hearlier⟩ := h
  refine ⟨⟨s, ?_, hraises⟩, ?_⟩
  · rw [List.getElem?_append_right (Nat.le_add_right _ _), Nat.add_sub_cancel_left, hs]
  · intro k hk t ht
    rcases Nat.lt_or_ge k xs.length with hlt | hge
    · rw [List.getElem?_append_left hlt] at ht
      exact hxs t (List.mem_of_getElem? ht)
    · rw [List.getElem?_append_right hge] at ht
      exact hearlier _ (by omega) t ht

/-- A list of sites has one first failure at most. -/
lemma unique (h : FailsAt xs i err) (h' : FailsAt xs j err') : i = j ∧ err = err' := by
  obtain ⟨⟨s, hs, hraises⟩, hearlier⟩ := h
  obtain ⟨⟨t, ht, hraises'⟩, hearlier'⟩ := h'
  rcases Nat.lt_trichotomy i j with hlt | rfl | hlt
  · exact absurd (hearlier' i hlt s hs) hraises.not_hasValue
  · obtain rfl : s = t := Option.some.inj (hs.symm.trans ht)
    have heval := hraises.eval_eq.symm.trans hraises'.eval_eq
    exact ⟨rfl, Except.error.inj heval⟩
  · exact absurd (hearlier j hlt t ht) hraises'.not_hasValue

end FailsAt

/-- A failing root is the first failure of a list whose other sites come before it and have
values. -/
lemma failsAt_concat {xs : List Site} {s : Site} {err : RunError}
    (hxs : ∀ t ∈ xs, t.tree.HasValue) (h : s.tree.Raises err) :
    FailsAt (xs ++ [s]) xs.length err := by
  have hlast : FailsAt [s] 0 err := ⟨⟨s, rfl, h⟩, fun j hj => absurd hj (Nat.not_lt_zero j)⟩
  exact hlast.append_right hxs

namespace Expr

/-! ## Expressions -/

/-- An operator has a value if its operands have values on which it does not fail. -/
lemma eval_binary {op : Operator} {l r : Expr} {p : Position} {a b : Value}
    (hl : l.eval = .ok a) (hr : r.eval = .ok b) :
    (binary op l r p).eval = Value.combine op a b p := by
  simp [eval, hl, hr, Except.bind]

lemma eval_unary {op : Operator} {e : Expr} {a : Value} (he : e.eval = .ok a) :
    (unary op e).eval = Value.signed op a := by
  simp [eval, he, Except.bind]

lemma HasValue.left {op : Operator} {l r : Expr} {p : Position}
    (h : (binary op l r p).HasValue) : l.HasValue := by
  obtain ⟨v, hv⟩ := h
  cases hl : l.eval with
  | ok a => exact ⟨a, hl⟩
  | error err => simp [eval, hl, Except.bind] at hv

lemma HasValue.right {op : Operator} {l r : Expr} {p : Position}
    (h : (binary op l r p).HasValue) : r.HasValue := by
  obtain ⟨a, hl⟩ := h.left
  obtain ⟨v, hv⟩ := h
  cases hr : r.eval with
  | ok b => exact ⟨b, hr⟩
  | error err => simp [eval, hl, hr, Except.bind] at hv

lemma HasValue.operand {op : Operator} {e : Expr} (h : (unary op e).HasValue) :
    e.HasValue := by
  obtain ⟨v, hv⟩ := h
  cases he : e.eval with
  | ok a => exact ⟨a, he⟩
  | error err => simp [eval, he, Except.bind] at hv

/-- All nodes of an expression with a value have values. -/
lemma HasValue.of_mem_sites {e : Expr} {exposed : Bool} {s : Site} (h : e.HasValue)
    (hs : s ∈ e.sites exposed) : s.tree.HasValue := by
  induction e generalizing exposed with
  | int n p =>
    obtain rfl := List.mem_singleton.mp hs
    exact h
  | float x p =>
    obtain rfl := List.mem_singleton.mp hs
    exact h
  | binary op l r p ihl ihr =>
    simp only [sites, List.mem_append, List.mem_singleton] at hs
    rcases hs with (hs | hs) | rfl
    · exact ihl h.left hs
    · exact ihr h.right hs
    · exact h
  | unary op e ih =>
    simp only [sites, List.mem_append, List.mem_singleton] at hs
    rcases hs with hs | rfl
    · exact ih h.operand hs
    · exact h
  | group e ih =>
    simp only [sites, List.mem_append, List.mem_singleton] at hs
    rcases hs with hs | rfl
    · exact ih h hs
    · exact h

/-- A failing expression fails at the first of its sites at which an operator fails. -/
lemma exists_failsAt {e : Expr} {err : RunError} (exposed : Bool) (h : e.eval = .error err) :
    ∃ i, FailsAt (e.sites exposed) i err := by
  induction e generalizing exposed with
  | int n p => simp [eval] at h
  | float x p => simp [eval] at h
  | binary op l r p ihl ihr =>
    rw [sites, List.append_assoc]
    cases hl : l.eval with
    | error err' =>
      obtain rfl : err' = err := by simpa [eval, hl, Except.bind] using h
      obtain ⟨i, hi⟩ := ihl exposed hl
      exact ⟨i, hi.append_left _⟩
    | ok a =>
      have hleft : ∀ s ∈ l.sites exposed, s.tree.HasValue :=
        fun s hs => HasValue.of_mem_sites ⟨a, hl⟩ hs
      cases hr : r.eval with
      | error err' =>
        obtain rfl : err' = err := by simpa [eval, hl, hr, Except.bind] using h
        obtain ⟨i, hi⟩ := ihr exposed hr
        exact ⟨_, (hi.append_left _).append_right hleft⟩
      | ok b =>
        -- both operands have values, so it is the operator that fails
        have hright : ∀ s ∈ r.sites exposed, s.tree.HasValue :=
          fun s hs => HasValue.of_mem_sites ⟨b, hr⟩ hs
        rw [eval_binary hl hr, Value.combine] at h
        cases hc : Scalar.combine op a.scalar b.scalar with
        | ok c => simp [hc] at h
        | error fault =>
          obtain rfl : (⟨.arithmetic fault, some p⟩ : RunError) = err := by simpa [hc] using h
          exact ⟨_, (failsAt_concat hright (.binary hl hr hc)).append_right hleft⟩
  | unary op e ih =>
    rw [sites]
    cases he : e.eval with
    | error err' =>
      obtain rfl : err' = err := by simpa [eval, he, Except.bind] using h
      obtain ⟨i, hi⟩ := ih false he
      exact ⟨i, hi.append_left _⟩
    | ok a =>
      have hoperand : ∀ s ∈ e.sites false, s.tree.HasValue :=
        fun s hs => HasValue.of_mem_sites ⟨a, he⟩ hs
      rw [eval_unary he, Value.signed] at h
      cases hc : Scalar.signed op a.scalar with
      | ok c => simp [hc] at h
      | error fault =>
        obtain rfl : (⟨.arithmetic fault, none⟩ : RunError) = err := by simpa [hc] using h
        exact ⟨_, failsAt_concat hoperand (.unary he hc)⟩
  | group e ih =>
    obtain ⟨i, hi⟩ := ih false h
    exact ⟨i, hi.append_left _⟩

/-- An expression fails exactly as the first of its sites at which an operator fails. -/
theorem eval_eq_error_iff {e : Expr} {err : RunError} (exposed : Bool) :
    e.eval = .error err ↔ ∃ i, FailsAt (e.sites exposed) i err := by
  refine ⟨exists_failsAt exposed, ?_⟩
  rintro ⟨i, hi⟩
  cases he : e.eval with
  | ok v =>
    obtain ⟨s, hs, hraises⟩ := hi.raises
    have hvalue := HasValue.of_mem_sites ⟨v, he⟩ (List.mem_of_getElem? hs)
    exact absurd hvalue hraises.not_hasValue
  | error err' =>
    obtain ⟨j, hj⟩ := exists_failsAt exposed he
    rw [(hi.unique hj).2]

end Expr

/-! ## Programs -/

/-- A line is written, or it is refused without a place; a sink that takes everything refuses
nothing, and stays one. -/
lemma Sink.printLine_cases (sink : Sink) (a : Scalar) :
    (∃ sink', sink.printLine a = (.ok (), sink') ∧ (sink.room = none → sink'.room = none)) ∨
    (∃ refusal sink', sink.printLine a = (.error ⟨.output refusal, none⟩, sink') ∧
      sink.room ≠ none) := by
  unfold Sink.printLine Sink.write
  rcases hroom : sink.room with _ | n
  · exact .inl ⟨_, rfl, fun _ => rfl⟩
  · by_cases hfits : (a.text ++ "\n").length ≤ n
    · exact .inl ⟨_, by simp only [if_pos hfits]; rfl, by simp⟩
    · exact .inr ⟨sink.refusal, _, by simp only [if_neg hfits]; rfl, by simp⟩

/-- What executing a statement and those after it comes to: the failure of its expression, the
refusal of its line, or what the rest comes to. -/
lemma executeAll_cons_cases (s : Stmt) (ss : List Stmt) (sink : Sink) :
    (∃ err, s.expr.eval = .error err ∧ executeAll (s :: ss) sink = (.error err, sink)) ∨
    (∃ refusal sink', executeAll (s :: ss) sink = (.error ⟨.output refusal, none⟩, sink') ∧
      sink.room ≠ none) ∨
    (∃ v sink', s.expr.eval = .ok v ∧ executeAll (s :: ss) sink = executeAll ss sink' ∧
      (sink.room = none → sink'.room = none)) := by
  obtain ⟨e⟩ := s
  simp only [Stmt.expr, executeAll, Stmt.execute, Expr.evaluate_eq_eval]
  cases e.eval with
  | error err => exact .inl ⟨err, rfl, rfl⟩
  | ok v =>
    rcases sink.printLine_cases v.scalar with ⟨sink', hline, hroom⟩ | ⟨refusal, sink', hline, hroom⟩
    · exact .inr (.inr ⟨v, sink', rfl, by simp only [hline], hroom⟩)
    · exact .inr (.inl ⟨refusal, sink', by simp only [hline], hroom⟩)

/-- Statements that are executed to their end have values at all their sites. -/
lemma hasValue_of_executeAll {ss : List Stmt} {sink : Sink}
    (h : (executeAll ss sink).1 = .ok ()) : ∀ s ∈ Stmt.allSites ss, s.tree.HasValue := by
  induction ss generalizing sink with
  | nil => simp
  | cons s ss ih =>
    rcases executeAll_cons_cases s ss sink with
      ⟨err, -, hrun⟩ | ⟨refusal, sink', hrun, -⟩ | ⟨v, sink', hv, hrun, -⟩
    · exact absurd h (by simp [hrun])
    · exact absurd h (by simp [hrun])
    · rw [hrun] at h
      intro t ht
      rw [Stmt.allSites_cons, List.mem_append] at ht
      exact ht.elim (Expr.HasValue.of_mem_sites ⟨v, hv⟩) (ih h t)

/-- What stops statements is a refused line or the first failure among their sites. -/
lemma failsAt_of_executeAll {ss : List Stmt} {sink : Sink} {err : RunError}
    (h : (executeAll ss sink).1 = .error err) :
    (sink.room ≠ none ∧ ∃ refusal, err = ⟨.output refusal, none⟩) ∨
      ∃ i, FailsAt (Stmt.allSites ss) i err := by
  induction ss generalizing sink with
  | nil => simp [executeAll] at h
  | cons s ss ih =>
    rcases executeAll_cons_cases s ss sink with
      ⟨err', herr, hrun⟩ | ⟨refusal, sink', hrun, hroom⟩ | ⟨v, sink', hv, hrun, hroom⟩
    · obtain rfl : err' = err := by simpa [hrun] using h
      obtain ⟨i, hi⟩ := Expr.exists_failsAt true herr
      exact .inr ⟨i, hi.append_left _⟩
    · exact .inl ⟨hroom, refusal, by simpa [hrun] using h.symm⟩
    · rw [hrun] at h
      rcases ih h with ⟨hroom', hrefused⟩ | ⟨i, hi⟩
      · exact .inl ⟨fun hnone => hroom' (hroom hnone), hrefused⟩
      · exact .inr ⟨_, hi.append_right fun t ht => Expr.HasValue.of_mem_sites ⟨v, hv⟩ ht⟩

namespace Program

/-- What stops a program is a refused line or the first failure among its sites. -/
theorem output_or_failsAt_of_execute {p : Program} {sink : Sink} {err : RunError}
    (h : (p.execute sink).1 = .error err) :
    (∃ refusal, err = ⟨.output refusal, none⟩) ∨ ∃ i, FailsAt p.sites i err :=
  (failsAt_of_executeAll h).imp_left And.right

/-- With a sink that takes everything, a program stops exactly as the first of its sites at which
an operator fails. -/
theorem execute_eq_error_iff {p : Program} {sink : Sink} (hsink : sink.room = none)
    {err : RunError} : (p.execute sink).1 = .error err ↔ ∃ i, FailsAt p.sites i err := by
  constructor
  · intro h
    rcases failsAt_of_executeAll h with ⟨hroom, -⟩ | hfails
    · exact absurd hsink hroom
    · exact hfails
  · rintro ⟨i, hi⟩
    cases hrun : (p.execute sink).1 with
    | ok u =>
      obtain ⟨s, hs, hraises⟩ := hi.raises
      exact absurd (hasValue_of_executeAll hrun s (List.mem_of_getElem? hs)) hraises.not_hasValue
    | error err' =>
      rcases failsAt_of_executeAll hrun with ⟨hroom, -⟩ | ⟨j, hj⟩
      · exact absurd hsink hroom
      · rw [(hi.unique hj).2]

end Program

end Reckon
