/-
# What the kinds of the literals decide

The literals of an expression that has a value are all of the kind of the value: an operator has a
value only for operands of one kind, and signs and groups keep the kind.  Conversely, if `+` and `-`
are the only operators in front of operands, the literals tell how the expression can fail: by a
division by zero only if there is an integer among them, and for the kinds of operands only if there
are literals of different kinds (`Expr.allowedBy_of_eval_error`).

`Expr.evaluate_of_literals` puts both together.  Signs and groups, which hide literals from the
check of kinds, make no difference.  The parser puts nothing but signs in front of operands, so that
a program it finds is stopped by divisions by zero only if the literals of each statement are of one
kind.
-/
import Reckon.Proofs.Exactness
import Reckon.Proofs.Kinds

namespace Reckon

/-- With operands that are no integers an operator does not divide by zero, and with operands of one
kind it does not fail otherwise. -/
lemma Scalar.combine_error_cases {op : Operator} {a b : Scalar} {fault : Fault}
    (h : combine op a b = .error fault) :
    (a.kind = .int ∧ fault = .divisionByZero) ∨
      (a.kind ≠ b.kind ∧ fault = .unsupportedOperands op a.kind b.kind) := by
  by_cases hkind : a.kind = b.kind
  · refine .inl ⟨?_, combine_fault_of_kind_eq hkind h⟩
    cases a with
    | int n => rfl
    | float x =>
      cases b with
      | int n => exact absurd hkind (by simp)
      | float y => exact absurd h (by simp [combine])
  · rw [combine_of_kind_ne hkind] at h
    exact .inr ⟨hkind, (Except.error.inj h).symm⟩

namespace Expr

/-! ## Signs -/

/-- Only `+` and `-` stand in front of an operand. -/
def SignsOnly : Expr → Prop
  | int .. => True
  | float .. => True
  | binary _ l r _ => l.SignsOnly ∧ r.SignsOnly
  | unary op e => (op = .plus ∨ op = .minus) ∧ e.SignsOnly
  | group e => e.SignsOnly

lemma Canonical.signsOnly {e : Expr} (h : e.Canonical) : e.SignsOnly := by
  induction h with
  | int n p | float x p => trivial
  | binary _ _ _ _ _ ihl ihr => exact ⟨ihl, ihr⟩
  | unary sign _ ih => exact ⟨sign, ih⟩
  | group _ ih => exact ih

/-! ## Literals -/

lemma exists_mem_literals (e : Expr) : ∃ a, a ∈ e.literals := by
  induction e with
  | int n p | float x p => exact ⟨_, List.mem_singleton_self _⟩
  | binary op l r p ihl ihr =>
    obtain ⟨a, ha⟩ := ihl
    exact ⟨a, List.mem_append_left _ ha⟩
  | unary op e ih | group e ih => exact ih

/-- The literals below a node are literals of the expression, and the signs are signs. -/
lemma of_mem_sites {e : Expr} {exposed : Bool} {s : Site} (hs : s ∈ e.sites exposed) :
    s.tree.literals ⊆ e.literals ∧ (e.SignsOnly → s.tree.SignsOnly) := by
  induction e generalizing exposed with
  | int n p | float x p =>
    obtain rfl := List.mem_singleton.mp hs
    exact ⟨List.Subset.refl _, id⟩
  | binary op l r p ihl ihr =>
    simp only [sites, List.mem_append, List.mem_singleton] at hs
    rcases hs with (hs | hs) | rfl
    · obtain ⟨hliterals, hsigns⟩ := ihl hs
      exact ⟨List.Subset.trans hliterals (List.subset_append_left _ _), fun h => hsigns h.1⟩
    · obtain ⟨hliterals, hsigns⟩ := ihr hs
      exact ⟨List.Subset.trans hliterals (List.subset_append_right _ _), fun h => hsigns h.2⟩
    · exact ⟨List.Subset.refl _, id⟩
  | unary op e ih =>
    simp only [sites, List.mem_append, List.mem_singleton] at hs
    rcases hs with hs | rfl
    · obtain ⟨hliterals, hsigns⟩ := ih hs
      exact ⟨hliterals, fun h => hsigns h.2⟩
    · exact ⟨List.Subset.refl _, id⟩
  | group e ih =>
    simp only [sites, List.mem_append, List.mem_singleton] at hs
    rcases hs with hs | rfl
    · exact ih hs
    · exact ⟨List.Subset.refl _, id⟩

end Expr

/-! ## Failures -/

/-- An error that there can be in an expression with the literals `as`. -/
inductive RunError.AllowedBy (as : List Scalar) : RunError → Prop where
  | division {a : Scalar} (mem : a ∈ as) (integer : a.kind = .int) (place : Position) :
      AllowedBy as ⟨.arithmetic .divisionByZero, some place⟩
  | mixed (op : Operator) {a b : Scalar} (left : a ∈ as) (right : b ∈ as)
      (different : a.kind ≠ b.kind) (place : Position) :
      AllowedBy as ⟨.arithmetic (.unsupportedOperands op a.kind b.kind), some place⟩

lemma RunError.AllowedBy.mono {as bs : List Scalar} {err : RunError} (h : AllowedBy as err)
    (hsub : as ⊆ bs) : AllowedBy bs err := by
  cases h with
  | division mem integer place => exact .division (hsub mem) integer place
  | mixed op left right different place => exact .mixed op (hsub left) (hsub right) different place

namespace Expr

/-- An operator that fails does so by the kinds of the literals of its operands. -/
lemma Raises.allowedBy {e : Expr} {err : RunError} (h : e.Raises err) (hsigns : e.SignsOnly) :
    err.AllowedBy e.literals := by
  cases h with
  | @binary op l r p a b fault left right fails =>
    obtain ⟨c, hc⟩ := l.exists_mem_literals
    obtain ⟨d, hd⟩ := r.exists_mem_literals
    have hckind : c.kind = a.scalar.kind := kind_of_mem_literals left c hc
    have hdkind : d.kind = b.scalar.kind := kind_of_mem_literals right d hd
    have hmem : c ∈ (Expr.binary op l r p).literals := List.mem_append_left _ hc
    rcases Scalar.combine_error_cases fails with ⟨hinteger, rfl⟩ | ⟨hdifferent, rfl⟩
    · exact .division hmem (hckind.trans hinteger) p
    · rw [← hckind, ← hdkind] at hdifferent ⊢
      exact .mixed op hmem (List.mem_append_right _ hd) hdifferent p
  | unary operand fails =>
    -- no sign fails
    rcases hsigns.1 with rfl | rfl <;> exact absurd fails (by simp [Scalar.signed])

/-- **An expression fails by the kinds of its literals.** -/
theorem allowedBy_of_eval_error {e : Expr} {err : RunError} (hsigns : e.SignsOnly)
    (h : e.eval = .error err) : err.AllowedBy e.literals := by
  obtain ⟨i, hi⟩ := (eval_eq_error_iff true).mp h
  obtain ⟨s, hs, hraises⟩ := hi.raises
  obtain ⟨hliterals, hsite⟩ := of_mem_sites (List.mem_of_getElem? hs)
  exact (hraises.allowedBy (hsite hsigns)).mono hliterals

/-- **What the literals decide.**  Let `+` and `-` be the only signs of an expression.  If it has a
value, then all literals are of the kind of the value.  With floats only it has a value, which is a
float.  With integers only it has a value, which is an integer, or a division by zero fails.  With
both it has no value.  Operands of different kinds are met only if there are literals of these
kinds. -/
theorem evaluate_of_literals {e : Expr} (h : e.SignsOnly) :
    (∀ v, e.evaluate = .ok v → ∀ a ∈ e.literals, a.kind = v.scalar.kind) ∧
      ((∀ a ∈ e.literals, a.kind = .float) → ∃ v, e.evaluate = .ok v ∧ v.scalar.kind = .float) ∧
      ((∀ a ∈ e.literals, a.kind = .int) →
        (∃ v, e.evaluate = .ok v ∧ v.scalar.kind = .int) ∨
          ∃ p, e.evaluate = .error ⟨.arithmetic .divisionByZero, some p⟩) ∧
      (∀ a ∈ e.literals, ∀ b ∈ e.literals, a.kind = .int → b.kind = .float →
        ∀ v, e.evaluate ≠ .ok v) ∧
      ∀ op left right place,
        e.evaluate = .error ⟨.arithmetic (.unsupportedOperands op left right), place⟩ →
          left ≠ right ∧ ∃ a ∈ e.literals, ∃ b ∈ e.literals, a.kind = left ∧ b.kind = right := by
  simp only [evaluate_eq_eval]
  -- a literal by which the kind of the value is known
  obtain ⟨c, hc⟩ := e.exists_mem_literals
  refine ⟨fun v => kind_of_mem_literals, fun hfloat => ?_, fun hint => ?_, ?_, ?_⟩
  · cases he : e.eval with
    | ok v => exact ⟨v, rfl, (kind_of_mem_literals he c hc).symm.trans (hfloat c hc)⟩
    | error err =>
      cases allowedBy_of_eval_error h he with
      | division mem integer place => exact absurd ((hfloat _ mem).symm.trans integer) (by simp)
      | mixed op left right different place =>
        exact absurd ((hfloat _ left).trans (hfloat _ right).symm) different
  · cases he : e.eval with
    | ok v => exact .inl ⟨v, rfl, (kind_of_mem_literals he c hc).symm.trans (hint c hc)⟩
    | error err =>
      cases allowedBy_of_eval_error h he with
      | division mem integer place => exact .inr ⟨place, rfl⟩
      | mixed op left right different place =>
        exact absurd ((hint _ left).trans (hint _ right).symm) different
  · intro a ha b hb hint hfloat v he
    have hsame : a.kind = b.kind :=
      (kind_of_mem_literals he a ha).trans (kind_of_mem_literals he b hb).symm
    rw [hint, hfloat] at hsame
    exact absurd hsame (by simp)
  · intro op left right place he
    cases allowedBy_of_eval_error h he with
    | mixed op hleft hright different place =>
      exact ⟨different, _, hleft, _, hright, rfl, rfl⟩

/-- In `(-(1)) * (+2.)` there are literals of both kinds, which the check of kinds does not see. -/
theorem evaluate_of_literals_hidden :
    let e := binary .times (group (unary .minus (group (int 1 ⟨1, 10⟩))))
      (group (unary .plus (float 2 ⟨1, 18⟩))) ⟨1, 14⟩
    e.SignsOnly ∧ e.typing.2 = [] ∧ ∀ v, e.evaluate ≠ .ok v := by
  intro e
  have hsigns : e.SignsOnly := by simp [e, SignsOnly]
  obtain ⟨-, -, -, hmixed, -⟩ := evaluate_of_literals hsigns
  exact ⟨hsigns, rfl, hmixed (.int 1) (by simp [e, literals]) (.float 2) (by simp [e, literals])
    rfl rfl⟩

end Expr

/-! ## Programs -/

namespace Program

/-- The parser puts only signs in front of operands. -/
lemma signsOnly_of_ofTokens {ts : List Token} {p : Program} (h : ofTokens ts = .ok p) :
    ∀ s ∈ p.statements, s.expr.SignsOnly := by
  obtain ⟨ss, hss, hcanonical, -⟩ := Parser.allYield_of_statements h
  rw [hss]
  exact fun s hs => (hcanonical s hs).signsOnly

/-- If the literals of each statement are of one kind, a program is stopped by a refused line or by
a division by zero only. -/
theorem divisionByZero_of_literals {ts : List Token} {p : Program} (h : ofTokens ts = .ok p)
    (hliterals : ∀ s ∈ p.statements, ∀ a ∈ s.expr.literals, ∀ b ∈ s.expr.literals, a.kind = b.kind)
    {sink : Sink} {err : RunError} (hrun : (p.execute sink).1 = .error err) :
    (∃ refusal, err = ⟨.output refusal, none⟩) ∨
      ∃ place, err = ⟨.arithmetic .divisionByZero, some place⟩ := by
  refine (output_or_failsAt_of_execute hrun).imp_right ?_
  rintro ⟨i, hi⟩
  obtain ⟨s, hs, hraises⟩ := hi.raises
  obtain ⟨stmt, hstmt, hmem⟩ := List.mem_flatMap.mp (List.mem_of_getElem? hs)
  obtain ⟨hsub, hsite⟩ := Expr.of_mem_sites hmem
  have hallowed := hraises.allowedBy (hsite (signsOnly_of_ofTokens h stmt hstmt))
  cases hallowed.mono hsub with
  | division mem integer place => exact ⟨place, rfl⟩
  | mixed op left right different place =>
    exact absurd (hliterals stmt hstmt _ left _ right) different

end Program

end Reckon
