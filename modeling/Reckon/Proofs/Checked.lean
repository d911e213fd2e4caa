/-
# What the check guarantees

The check compares kinds at some operators only.  A site is checked if it is an operator that lies
under no sign and in no group, and if the chains of left operands of both its operands end at
literals.  A program without errors can fail at a checked operator by dividing by zero only: the
kinds of its leading literals agree, and so do those of its operands, if they have values.  At other
operators everything can happen.

In a plain program, one without signs and groups, all operators are checked.  There the check finds
nothing just if the literals of each statement are of one kind.
-/
import Reckon.Proofs.Kinds

namespace Reckon

/-! ## Checked sites -/

/-- A site at which kinds are compared. -/
inductive Site.Checked : Site → Prop where
  | intro {op : Operator} {l r : Expr} {p : Position} {a b : Scalar}
      (left : l.leading? = some a) (right : r.leading? = some b) :
      Checked ⟨.binary op l r p, true⟩

/-- A checked operator without an error fails by dividing by zero only. -/
lemma Site.Checked.cause_of_raises {s : Site} {err : RunError} (h : s.Checked)
    (hnone : s.kindError? = none) (hraises : s.tree.Raises err) :
    err.cause = .arithmetic .divisionByZero := by
  cases h with
  | @intro op l r p a b ha hb =>
    have hkind : a.kind = b.kind := by
      by_contra hne
      exact absurd hnone (by simp [kindError?, ha, hb, hne])
    cases hraises with
    | binary left right fails =>
      have hl := Expr.kind_of_eval left ha
      have hr := Expr.kind_of_eval right hb
      have hfault := Scalar.combine_fault_of_kind_eq (hl.trans (hkind.trans hr.symm)) fails
      rw [hfault]

/-- In a program without errors no site has one. -/
lemma Program.kindError?_eq_none {p : Program} (h : p.kindErrors = []) {s : Site}
    (hs : s ∈ p.sites) : s.kindError? = none := by
  rw [kindErrors_eq_filterMap, List.filterMap_eq_nil_iff] at h
  exact h s hs

/-- What stops a program without errors is a refused line or the first failure among its sites,
which at a checked site is a division by zero. -/
lemma Program.failsAt_of_kindErrors_eq_nil {p : Program} (h : p.kindErrors = []) {sink : Sink}
    {err : RunError} (hrun : (p.execute sink).1 = .error err) :
    (∃ refusal, err = ⟨.output refusal, none⟩) ∨
      ∃ i s, FailsAt p.sites i err ∧ p.sites[i]? = some s ∧
        (s.Checked → err.cause = .arithmetic .divisionByZero) := by
  rcases output_or_failsAt_of_execute hrun with hrefused | ⟨i, hi⟩
  · exact .inl hrefused
  · obtain ⟨s, hs, hraises⟩ := hi.raises
    refine .inr ⟨i, s, hi, hs, fun hchecked => ?_⟩
    have hnone : s.kindError? = none := kindError?_eq_none h (List.mem_of_getElem? hs)
    exact hchecked.cause_of_raises hnone hraises

/-! ## Plain expressions -/

namespace Expr

/-- There are no signs and no groups in an expression. -/
def IsPlain : Expr → Prop
  | int .. => True
  | float .. => True
  | binary _ l r _ => l.IsPlain ∧ r.IsPlain
  | unary .. => False
  | group _ => False

lemma IsPlain.exists_leading {e : Expr} (h : e.IsPlain) : ∃ a, e.leading? = some a := by
  induction e with
  | int n p => exact ⟨_, rfl⟩
  | float x p => exact ⟨_, rfl⟩
  | binary op l r p ihl ihr => exact ihl h.1
  | unary op e ih => exact h.elim
  | group e ih => exact h.elim

/-- In a plain expression, all sites at which something can fail are checked. -/
lemma IsPlain.checked_of_mem_sites {e : Expr} (h : e.IsPlain) {s : Site}
    (hs : s ∈ e.sites true) {err : RunError} (hraises : s.tree.Raises err) : s.Checked := by
  induction e with
  | int n p | float x p =>
    obtain rfl := List.mem_singleton.mp hs
    cases hraises
  | binary op l r p ihl ihr =>
    simp only [sites, List.mem_append, List.mem_singleton] at hs
    rcases hs with (hs | hs) | rfl
    · exact ihl h.1 hs
    · exact ihr h.2 hs
    · obtain ⟨a, ha⟩ := h.1.exists_leading
      obtain ⟨b, hb⟩ := h.2.exists_leading
      exact .intro ha hb
  | unary op e ih => exact h.elim
  | group e ih => exact h.elim

/-- A plain expression is without errors just if its literals are of the kind of the leading one. -/
lemma IsPlain.typing_eq_nil_iff_leading {e : Expr} (h : e.IsPlain) {a : Scalar}
    (ha : e.leading? = some a) : e.typing.2 = [] ↔ ∀ b ∈ e.literals, b.kind = a.kind := by
  induction e generalizing a with
  | int n p | float x p =>
    obtain rfl := Option.some.inj ha
    simp [typing, literals]
  | binary op l r p ihl ihr =>
    obtain ⟨c, hc⟩ := h.2.exists_leading
    have hl := ihl h.1 ha
    have hr := ihr h.2 hc
    have hroot : KindError.between? op l.typing.1 r.typing.1 p = none ↔ c.kind = a.kind := by
      rw [typing_fst, typing_fst, show l.leading? = some a from ha, hc]
      simp [KindError.between?, eq_comm]
    simp only [typing, literals, List.append_eq_nil_iff, Option.toList_eq_nil_iff, hl, hr, hroot,
      List.mem_append]
    constructor
    · rintro ⟨⟨hleft, hright⟩, hkind⟩ b (hb | hb)
      · exact hleft b hb
      · exact (hright b hb).trans hkind
    · intro hall
      have hkind : c.kind = a.kind := hall c (.inr (leading_mem_literals hc))
      refine ⟨⟨fun b hb => hall b (.inl hb), fun b hb => ?_⟩, hkind⟩
      rw [hall b (.inr hb), hkind]
  | unary op e ih => exact h.elim
  | group e ih => exact h.elim

/-- A plain expression is without errors just if its literals are of one kind. -/
lemma IsPlain.typing_eq_nil_iff {e : Expr} (h : e.IsPlain) :
    e.typing.2 = [] ↔ ∀ a ∈ e.literals, ∀ b ∈ e.literals, a.kind = b.kind := by
  obtain ⟨c, hc⟩ := h.exists_leading
  rw [h.typing_eq_nil_iff_leading hc]
  constructor
  · intro hall a ha b hb
    rw [hall a ha, hall b hb]
  · intro hall b hb
    exact hall b hb c (leading_mem_literals hc)

end Expr

/-! ## Plain programs -/

namespace Program

/-- All expressions of a program are plain. -/
def IsPlain (p : Program) : Prop := ∀ s ∈ p.statements, s.expr.IsPlain

lemma IsPlain.checked_of_failsAt {p : Program} (h : p.IsPlain) {i : ℕ} {s : Site}
    {err : RunError} (hi : FailsAt p.sites i err) (hs : p.sites[i]? = some s) : s.Checked := by
  obtain ⟨t, ht, hraises⟩ := hi.raises
  obtain rfl : t = s := Option.some.inj (ht.symm.trans hs)
  obtain ⟨stmt, hstmt, hmem⟩ := List.mem_flatMap.mp (List.mem_of_getElem? hs)
  exact (h stmt hstmt).checked_of_mem_sites hmem hraises

lemma kindErrors_eq_nil_iff {p : Program} :
    p.kindErrors = [] ↔ ∀ s ∈ p.statements, s.expr.typing.2 = [] := by
  rw [kindErrors_eq, List.flatMap_eq_nil_iff]
  rfl

lemma IsPlain.kindErrors_eq_nil_iff {p : Program} (h : p.IsPlain) :
    p.kindErrors = [] ↔
      ∀ s ∈ p.statements, ∀ a ∈ s.expr.literals, ∀ b ∈ s.expr.literals, a.kind = b.kind :=
  Program.kindErrors_eq_nil_iff.trans
    (forall₂_congr fun s hs => (h s hs).typing_eq_nil_iff)

/-- **What a program without errors can fail by.**

* A program without errors is stopped by a refused line or by the first failure among its sites,
  and at a checked site that failure is a division by zero.
* A plain program without errors is stopped by a refused line or by a division by zero only.
* A plain program is without errors just if the literals of each of its statements are of one
  kind. -/
theorem kindErrors_sound :
    (∀ p : Program, p.kindErrors = [] → ∀ (sink : Sink) (err : RunError),
      (p.execute sink).1 = .error err →
      (∃ refusal, err = ⟨.output refusal, none⟩) ∨
        ∃ i s, FailsAt p.sites i err ∧ p.sites[i]? = some s ∧
          (s.Checked → err.cause = .arithmetic .divisionByZero)) ∧
    (∀ p : Program, p.IsPlain → p.kindErrors = [] → ∀ (sink : Sink) (err : RunError),
      (p.execute sink).1 = .error err →
      (∃ refusal, err.cause = .output refusal) ∨ err.cause = .arithmetic .divisionByZero) ∧
    (∀ p : Program, p.IsPlain →
      (p.kindErrors = [] ↔
        ∀ s ∈ p.statements, ∀ a ∈ s.expr.literals, ∀ b ∈ s.expr.literals, a.kind = b.kind)) := by
  refine ⟨fun p h sink err => failsAt_of_kindErrors_eq_nil h, ?_,
    fun p h => h.kindErrors_eq_nil_iff⟩
  intro p hplain h sink err hrun
  rcases failsAt_of_kindErrors_eq_nil h hrun with ⟨refusal, rfl⟩ | ⟨i, s, hi, hs, hfault⟩
  · exact .inl ⟨refusal, rfl⟩
  · exact .inr (hfault (hplain.checked_of_failsAt hi hs))

/-- The quotient of one and zero is plain and without errors, and it fails by dividing by zero. -/
theorem kindErrors_sound_quotient :
    let quotient : Expr := .binary .divide (.int 1 ⟨1, 7⟩) (.int 0 ⟨1, 11⟩) ⟨1, 9⟩
    let program : Program := ⟨[.print quotient]⟩
    let err : RunError := ⟨.arithmetic .divisionByZero, some ⟨1, 9⟩⟩
    program.kindErrors = [] ∧ program.IsPlain ∧ (program.execute .unlimited).1 = .error err ∧
      ((∃ refusal, err = ⟨.output refusal, none⟩) ∨
        ∃ i s, FailsAt program.sites i err ∧ program.sites[i]? = some s ∧
          (s.Checked → err.cause = .arithmetic .divisionByZero)) ∧
      ((∃ refusal, err.cause = .output refusal) ∨ err.cause = .arithmetic .divisionByZero) ∧
      ∀ s ∈ program.statements, ∀ a ∈ s.expr.literals, ∀ b ∈ s.expr.literals, a.kind = b.kind := by
  intro quotient program err
  have hnil : program.kindErrors = [] := by
    rw [kindErrors_eq]
    rfl
  have hplain : program.IsPlain := by
    refine List.forall_mem_singleton.mpr ?_
    exact ⟨trivial, trivial⟩
  have hvalue : quotient.eval = .error err := rfl
  have hrun : (program.execute .unlimited).1 = .error err := by
    simp [program, execute, executeAll, Stmt.execute, Expr.evaluate_eq_eval, hvalue]
  obtain ⟨hfails, hdivision, hliterals⟩ := kindErrors_sound
  exact ⟨hnil, hplain, hrun, hfails program hnil .unlimited err hrun,
    hdivision program hplain hnil .unlimited err hrun, (hliterals program hplain).mp hnil⟩

-- A group hides the kind of its literal from the check, and the program still fails.
example (p q r : Position) :
    let program : Program := ⟨[.print (.binary .plus (.group (.int 1 p)) (.float 2 q) r)]⟩
    program.kindErrors = [] ∧ (program.execute .unlimited).1 =
      .error ⟨.arithmetic (.unsupportedOperands .plus .int .float), some r⟩ := by
  constructor
  · cbv
  · cbv

end Program

end Reckon
