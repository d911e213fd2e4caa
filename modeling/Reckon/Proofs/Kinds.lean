/-
# Kinds read off leading literals

The leading literal of an expression is found by going down to left operands only.  It decides the
kind of the expression, as far as that is known before the program runs, and also the kind of its
value, if it has one: an operator between operands has a value only if they are of one kind, and
the value is of that kind too, so that it is the kind of every literal of the expression.

The first half is `Program.kindErrors_eq_filterMap`: the errors of a program are those of its
sites, in the order of evaluation.  The second half is `Expr.kind_of_eval`.  Together they say what
happens at a site that has an error when the program runs: it has no value, and if it is reached,
it fails with the very operands that the error tells (`Site.eq_of_raises`).
-/
import Reckon.Proofs.Sites
import Reckon.Typing

namespace Reckon

/-! ## Arithmetic on kinds -/

namespace Scalar

/-- Numbers of different kinds are not combined. -/
lemma combine_of_kind_ne {a b : Scalar} (h : a.kind ≠ b.kind) (op : Operator) :
    combine op a b = .error (.unsupportedOperands op a.kind b.kind) := by
  cases a <;> cases b
  · exact absurd rfl h
  · rfl
  · rfl
  · exact absurd rfl h

/-- With numbers of one kind an operator fails only by dividing by zero. -/
lemma combine_fault_of_kind_eq {op : Operator} {a b : Scalar} {fault : Fault}
    (hkind : a.kind = b.kind) (h : combine op a b = .error fault) : fault = .divisionByZero := by
  cases a <;> cases b <;> simp only [combine] at h
  · split at h
    · exact absurd h (by simp)
    · exact (Except.error.inj h).symm
  · exact absurd hkind (by simp)
  · exact absurd hkind (by simp)
  · exact absurd h (by simp)

end Scalar

/-! ## Leading literals -/

namespace Expr

/-- The literal at the end of the chain of left operands, if the chain ends at one. -/
def leading? : Expr → Option Scalar
  | int n _ => some (.int n)
  | float x _ => some (.float x)
  | binary _ l _ _ => l.leading?
  | unary .. => none
  | group _ => none

lemma typing_fst (e : Expr) : e.typing.1 = e.leading?.map Scalar.kind := by
  induction e with
  | int n p => rfl
  | float x p => rfl
  | binary op l r p ihl ihr => exact ihl
  | unary op e ih => rfl
  | group e ih => rfl

lemma leading_mem_literals {e : Expr} {a : Scalar} (h : e.leading? = some a) :
    a ∈ e.literals := by
  induction e with
  | int n p | float x p =>
    obtain rfl := Option.some.inj h
    exact List.mem_singleton.mpr rfl
  | binary op l r p ihl ihr => exact List.mem_append_left _ (ihl h)
  | unary op e ih => exact absurd h (by simp [leading?])
  | group e ih => exact absurd h (by simp [leading?])

/-- **The kind of a value is that of every literal.** -/
theorem kind_of_mem_literals {e : Expr} {v : Value} (h : e.eval = .ok v) :
    ∀ a ∈ e.literals, a.kind = v.scalar.kind := by
  induction e generalizing v with
  | int n p | float x p =>
    obtain rfl := Except.ok.inj h
    exact List.forall_mem_singleton.mpr rfl
  | binary op l r p ihl ihr =>
    have hvalue : (binary op l r p).HasValue := ⟨v, h⟩
    obtain ⟨b, hl⟩ := hvalue.left
    obtain ⟨c, hr⟩ := hvalue.right
    rw [eval_binary hl hr, Value.combine] at h
    cases hd : Scalar.combine op b.scalar c.scalar with
    | error fault => simp [hd] at h
    | ok d =>
      obtain rfl : Value.computed d = v := by simpa [hd] using h
      obtain ⟨hleft, hsame⟩ := Scalar.kind_of_combine hd
      refine List.forall_mem_append.mpr ⟨fun a ha => ?_, fun a ha => ?_⟩
      · exact (ihl hl a ha).trans hleft.symm
      · exact (ihr hr a ha).trans (hleft.trans hsame).symm
  | unary op e ih =>
    have hvalue : (unary op e).HasValue := ⟨v, h⟩
    obtain ⟨b, he⟩ := hvalue.operand
    rw [eval_unary he, Value.signed] at h
    cases hd : Scalar.signed op b.scalar with
    | error fault => simp [hd] at h
    | ok d =>
      obtain rfl : Value.computed d = v := by simpa [hd] using h
      exact fun a ha => (ih he a ha).trans (Scalar.kind_of_signed hd).symm
  | group e ih => exact ih h

/-- The value of an expression is of the kind of its leading literal. -/
theorem kind_of_eval {e : Expr} {v : Value} {a : Scalar} (h : e.eval = .ok v)
    (ha : e.leading? = some a) : v.scalar.kind = a.kind :=
  (kind_of_mem_literals h a (leading_mem_literals ha)).symm

end Expr

/-! ## Errors of sites -/

namespace Site

/-- The error of a site: there is one at an exposed operator whose operands have leading literals
of different kinds. -/
def kindError? (s : Site) : Option KindError :=
  match s.exposed, s.tree with
  | true, .binary op l r p =>
    match l.leading?, r.leading? with
    | some a, some b => if a.kind = b.kind then none else some ⟨op, a.kind, b.kind, p⟩
    | _, _ => none
  | _, _ => none

lemma kindError?_of_not_exposed {s : Site} (h : s.exposed = false) : s.kindError? = none := by
  rw [kindError?, h]

lemma kindError?_eq_some {s : Site} {err : KindError} (h : s.kindError? = some err) :
    ∃ op l r p a b, s = ⟨.binary op l r p, true⟩ ∧ l.leading? = some a ∧ r.leading? = some b ∧
      a.kind ≠ b.kind ∧ err = ⟨op, a.kind, b.kind, p⟩ := by
  obtain ⟨tree, exposed⟩ := s
  unfold kindError? at h
  split at h
  · rename_i op l r p hexposed htree
    obtain rfl : exposed = true := hexposed
    obtain rfl : tree = .binary op l r p := htree
    split at h
    · rename_i a b ha hb
      split at h
      · exact absurd h (by simp)
      · rename_i hne
        exact ⟨op, l, r, p, a, b, rfl, ha, hb, hne, (Option.some.inj h).symm⟩
    · exact absurd h (by simp)
  · exact absurd h (by simp)

/-- A site with an error fails with the operands that the error tells, if its operands have
values. -/
theorem eq_of_raises {s : Site} {e : KindError} {err : RunError} (h : s.kindError? = some e)
    (hraises : s.tree.Raises err) :
    err = ⟨.arithmetic (.unsupportedOperands e.op e.left e.right), some e.position⟩ := by
  obtain ⟨op, l, r, p, a, b, rfl, ha, hb, hne, rfl⟩ := kindError?_eq_some h
  cases hraises with
  | binary left right fails =>
    have hl := Expr.kind_of_eval left ha
    have hr := Expr.kind_of_eval right hb
    rw [Scalar.combine_of_kind_ne (by rwa [hl, hr]), hl, hr] at fails
    rw [← Except.error.inj fails]

/-- A site with an error has no value. -/
theorem not_hasValue_of_kindError {s : Site} {e : KindError} (h : s.kindError? = some e) :
    ¬ s.tree.HasValue := by
  obtain ⟨op, l, r, p, a, b, rfl, ha, hb, hne, rfl⟩ := kindError?_eq_some h
  intro hvalue
  obtain ⟨c, hl⟩ := hvalue.left
  obtain ⟨d, hr⟩ := hvalue.right
  have hkinds : c.scalar.kind ≠ d.scalar.kind := by
    rwa [Expr.kind_of_eval hl ha, Expr.kind_of_eval hr hb]
  exact (Expr.Raises.binary hl hr (Scalar.combine_of_kind_ne hkinds op)).not_hasValue hvalue

end Site

/-! ## Errors in the order of evaluation -/

lemma Expr.exposed_of_mem_sites {e : Expr} {s : Site} (h : s ∈ e.sites false) :
    s.exposed = false := by
  induction e with
  | int n p | float x p =>
    obtain rfl := List.mem_singleton.mp h
    rfl
  | binary op l r p ihl ihr =>
    simp only [sites, List.mem_append, List.mem_singleton] at h
    rcases h with (h | h) | rfl
    · exact ihl h
    · exact ihr h
    · rfl
  | unary op e ih | group e ih =>
    simp only [sites, List.mem_append, List.mem_singleton] at h
    rcases h with h | rfl
    · exact ih h
    · rfl

/-- Below a sign and in a group there are no errors. -/
lemma Expr.filterMap_kindError_sites_false (e : Expr) :
    (e.sites false).filterMap Site.kindError? = [] :=
  List.filterMap_eq_nil_iff.mpr fun _ hs => Site.kindError?_of_not_exposed (exposed_of_mem_sites hs)

lemma KindError.between?_map (op : Operator) (l r : Expr) (p : Position) :
    KindError.between? op (l.leading?.map Scalar.kind) (r.leading?.map Scalar.kind) p =
      Site.kindError? ⟨.binary op l r p, true⟩ := by
  unfold KindError.between? Site.kindError?
  cases hl : l.leading? <;> cases hr : r.leading? <;> simp [hl, hr]

theorem Expr.typing_snd (e : Expr) : e.typing.2 = (e.sites true).filterMap Site.kindError? := by
  induction e with
  | int n p => rfl
  | float x p => rfl
  | binary op l r p ihl ihr =>
    simp only [typing, sites, List.filterMap_append, ihl, ihr, typing_fst, KindError.between?_map,
      List.filterMap_cons, List.filterMap_nil]
    cases Site.kindError? ⟨binary op l r p, true⟩ <;> rfl
  | unary op e ih | group e ih =>
    rw [sites, List.filterMap_append, filterMap_kindError_sites_false]
    rfl

/-- The errors of a program are those of its sites, in the order of evaluation. -/
theorem Program.kindErrors_eq_filterMap (p : Program) :
    p.kindErrors = p.sites.filterMap Site.kindError? := by
  rw [kindErrors_eq, sites, Stmt.allSites]
  induction p.statements with
  | nil => rfl
  | cons s ss ih =>
    obtain ⟨e⟩ := s
    rw [List.flatMap_cons, ih, List.flatMap_cons, List.filterMap_append]
    exact congrArg (· ++ _) e.typing_snd

end Reckon
