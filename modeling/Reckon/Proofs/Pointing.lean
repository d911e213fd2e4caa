/-
# Errors point at the source

Every error that has a place was given it by the lexer: the parser takes the places of tokens, a
tree keeps those of its operators, and the check and the execution hand them on.  At the place of an
error of the parser stands the token that the error is about; at that of an error in kinds and of a
failure stands the symbol of the operator.

The main result is `errors_point_at_source`.
-/
import Reckon.Proofs.Diagnostics
import Reckon.Proofs.Gate
import Reckon.Run

namespace Reckon

/-! ## Errors of the parser -/

/-- An error of the parser is about a token that stands in the source text, at whose place it is,
or it is at the end of the text. -/
inductive ParseError.PointsAt (source : String) : ParseError → Prop where
  | atEnd (wanted : Expectation) :
      PointsAt source ⟨.unexpectedEnd wanted, .ofOffset source.toList source.toList.length⟩
  | token {err : ParseError} {t : Token} {o : ℕ} (mem : t ∈ tokenize source)
      (stands : t.StandsAt source.toList o) (tells : err.Tells t.position (some t)) :
      PointsAt source err

lemma ParseError.pointsAt_of_ofSource {source : String} {err : ParseError}
    (h : Program.ofSource source = .error err) : err.PointsAt source := by
  obtain ⟨ts, hsource, hmem, hstands⟩ := Parser.exists_ofSource_eq source
  obtain ⟨n, hn⟩ := Parser.exists_blocked_statements h
  have htells := hn.tells
  rw [hsource] at htells
  cases ht : ts[n]? with
  | none =>
    rw [ht] at htells
    cases htells with
    | atEnd wanted => exact .atEnd wanted
  | some t =>
    have htokens := List.mem_of_getElem? ht
    obtain ⟨o, ho⟩ := hstands t htokens
    refine .token (hmem t htokens) ho ?_
    -- what is told of a token does not depend on where the input ends
    rw [ht] at htells
    cases htells with
    | unexpected ne => exact .unexpected ne
    | noExpression => exact .noExpression t
    | integer kind unreadable => exact .integer kind unreadable
    | float kind unreadable => exact .float kind unreadable

/-! ## Failures -/

namespace Scalar

/-- An operator fails by dividing by zero, or because its operands are of different kinds. -/
lemma fault_of_combine {op : Operator} {a b : Scalar} {fault : Fault}
    (h : combine op a b = .error fault) : fault = .divisionByZero ∧ op = .divide ∨
      a.kind ≠ b.kind ∧ fault = .unsupportedOperands op a.kind b.kind := by
  by_cases hkind : a.kind = b.kind
  · left
    refine ⟨combine_fault_of_kind_eq hkind h, ?_⟩
    cases a <;> cases b
    · cases op with
      | divide => rfl
      | plus | minus | times => exact absurd h (by simp [combine, Operator.onInt])
    · exact absurd hkind (by simp)
    · exact absurd hkind (by simp)
    · exact absurd h (by simp [combine])
  · right
    rw [combine_of_kind_ne hkind] at h
    exact ⟨hkind, (Except.error.inj h).symm⟩

end Scalar

/-- The failure of an operator between operands, the first in the program that fails.  It has the
place of the operator, where the source text has its symbol; it is a division by zero only if the
operator is a division, and the kinds of the operands differ otherwise. -/
structure RunError.IsFrom (err : RunError) (source : String) (p : Program) (op : Operator) :
    Prop where
  site : ∃ i l r exposed q, FailsAt p.sites i err ∧
    p.sites[i]? = some ⟨.binary op l r q, exposed⟩ ∧ err.position = some q ∧
    Text.HasAt source q op.symbol
  cause : err.cause = .arithmetic .divisionByZero ∧ op = .divide ∨
    ∃ k l : Kind, k ≠ l ∧ err.cause = .arithmetic (.unsupportedOperands op k l)

/-- The signs of a program that was read do not fail, so it is an operator between operands that
does. -/
lemma RunError.exists_isFrom {source : String} {p : Program}
    (hp : Program.ofSource source = .ok p) {i : ℕ} {err : RunError} (h : FailsAt p.sites i err) :
    ∃ op, err.IsFrom source p op := by
  obtain ⟨⟨tree, exposed⟩, hs, hraises⟩ := h.raises
  have hmem := List.mem_of_getElem? hs
  cases hraises with
  | @binary op l r q a b fault left right fails =>
    refine ⟨op, ⟨i, l, r, exposed, q, h, hs, rfl, Program.hasAt_of_mem_sites hp hmem⟩, ?_⟩
    rcases Scalar.fault_of_combine fails with ⟨rfl, hop⟩ | ⟨hkind, rfl⟩
    · exact .inl ⟨rfl, hop⟩
    · exact .inr ⟨a.scalar.kind, b.scalar.kind, hkind, rfl⟩
  | @unary op e a fault operand fails =>
    obtain ⟨ss, hss, hcanonical, -⟩ := Parser.allYield_of_statements hp
    obtain rfl : p.statements = ss := hss
    have htree := Program.Canonical.of_mem_sites hcanonical hmem
    cases htree with
    | unary sign _ =>
      rcases sign with rfl | rfl
      · exact absurd fails (by simp [Scalar.signed])
      · exact absurd fails (by simp [Scalar.signed])

lemma conclude_eq_error {outcome : Except RunError Unit × Sink} {err : RunError}
    (h : (conclude outcome).1 = .error (.run err)) : outcome.1 = .error err := by
  obtain ⟨result, sink⟩ := outcome
  cases result with
  | ok u => exact absurd h (by simp [conclude])
  | error err' =>
    obtain ⟨⟩ := h
    rfl

/-- A failure of a run, with the check or without it, is that of the program. -/
lemma exists_execute_of_run {file source : String} {sink : Sink} {err : RunError}
    (h : (run file source sink).1 = .error (.run err) ∨
      (runUnchecked source sink).1 = .error (.run err)) :
    ∃ p, Program.ofSource source = .ok p ∧ (p.execute sink).1 = .error err := by
  unfold run runUnchecked at h
  cases hp : Program.ofSource source with
  | error err' => simp [hp] at h
  | ok p =>
    refine ⟨p, rfl, ?_⟩
    simp only [hp] at h
    rcases h with h | h
    · split at h
      · exact conclude_eq_error h
      · exact absurd h (by simp)
    · exact conclude_eq_error h

/-! ## Where errors point -/

/-- **Errors point at the source.**

* An error of the parser is about a token, and has the place at which the text has its lexeme, or it
  is that the input ends, and has the place of the end.
* For an error of the check a line is quoted that exists, and the character at its column is the
  operator.
* A failure of a run is a refused line, or that of an operator, and has the place at which the text
  has its symbol. -/
theorem errors_point_at_source (source : String) :
    (∀ err, Program.ofSource source = .error err → err.PointsAt source) ∧
    (∀ p, Program.ofSource source = .ok p → ∀ e ∈ p.kindErrors,
      e.IsQuoted source ∧ ∀ file, e.diagnostic file (Text.lines source) =
        e.header file ++ "\n" ++ e.body (e.quoted (Text.lines source))) ∧
    (∀ file sink err, (run file source sink).1 = .error (.run err) ∨
        (runUnchecked source sink).1 = .error (.run err) →
      (∃ refusal, err.cause = .output refusal) ∨
        ∃ p op, Program.ofSource source = .ok p ∧ err.IsFrom source p op) := by
  refine ⟨fun err => ParseError.pointsAt_of_ofSource, ?_, ?_⟩
  · intro p hp e he
    exact ⟨KindError.isQuoted hp he, fun file => KindError.diagnostic_eq file _ e⟩
  · intro file sink err h
    obtain ⟨p, hp, hrun⟩ := exists_execute_of_run h
    rcases Program.output_or_failsAt_of_execute hrun with ⟨refusal, rfl⟩ | ⟨i, hi⟩
    · exact .inl ⟨refusal, rfl⟩
    · obtain ⟨op, hop⟩ := RunError.exists_isFrom hp hi
      exact .inr ⟨p, op, hp, hop⟩

/-- In `print 2 + 3.5;` the check and the execution find fault with the same operator.  In `1` the
parser finds fault with the only token. -/
theorem errors_point_at_source_mixed :
    let source := "print 2 + 3.5;"
    let e : KindError := ⟨.plus, .int, .float, ⟨1, 9⟩⟩
    (∃ p err, Program.ofSource source = .ok p ∧ e ∈ p.kindErrors ∧ e.IsQuoted source ∧
      (runUnchecked source .unlimited).1 = .error (.run err) ∧
      ((∃ refusal, err.cause = .output refusal) ∨
        ∃ p op, Program.ofSource source = .ok p ∧ err.IsFrom source p op)) ∧
    ∃ err, Program.ofSource "1" = .error err ∧ err.PointsAt "1" := by
  intro source e
  obtain ⟨p, hp, herrors⟩ := Program.exists_ofSource_mixed tokenize_mixed
  have he : e ∈ p.kindErrors := by
    rw [herrors]
    exact List.mem_singleton_self e
  have hparse : Program.ofSource "1" = .error ⟨.unexpectedToken .print .integer, ⟨1, 1⟩⟩ := by
    decide +kernel
  obtain ⟨-, hquoted, hfails⟩ := errors_point_at_source source
  have hrun : runUnchecked source .unlimited = conclude (p.execute .unlimited) := by
    simp only [source, runUnchecked, hp]
  rcases hexecute : p.execute .unlimited with ⟨err | u, sink⟩
  · have herr : (runUnchecked source .unlimited).1 = .error (.run err) := by
      rw [hrun, hexecute]
      rfl
    exact ⟨⟨p, err, hp, he, (hquoted p hp e he).1, herr, hfails "" _ err (.inr herr)⟩,
      _, hparse, (errors_point_at_source "1").1 _ hparse⟩
  · -- a program with an error in kinds is executed to its end on no sink
    have hne : p.kindErrors ≠ [] := List.ne_nil_of_mem he
    exact absurd (congrArg Prod.fst hexecute) (Program.execute_ne_ok hne .unlimited)

end Reckon
