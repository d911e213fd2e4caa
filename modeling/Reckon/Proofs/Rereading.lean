/-
# Tokens with other places

The parser takes no decision by a place.  If the places of all tokens are replaced by others, and
that of the end of the input too, each of its functions gives the same result with the new places:
the same tree, or the same error at the new place, and the same tokens behind it.  This goes through
the functions in the order in which they call each other, since `Reading.andThen` has the property
if both of its readings have it, `Reading.relocate_andThen`.

The main result is `Parser.statements_relocate`.
-/
import Reckon.Proofs.Relocation
import Reckon.Proofs.Sequence

namespace Reckon

variable (f : Position → Position)

/-- A token with another place. -/
def Token.relocate (t : Token) : Token := { t with position := f t.position }

/-- An error with another place. -/
def ParseError.relocate (e : ParseError) : ParseError := { e with position := f e.position }

@[simp] lemma Token.lexeme_relocate (t : Token) : (t.relocate f).lexeme = t.lexeme := rfl

/-! ## Readings -/

namespace Reading

variable {α β γ δ : Type} (g : α → β)

/-- A reading with other places. -/
def relocate : Reading α → Reading β
  | .ok (a, rest) => .ok (g a, rest.map (Token.relocate f))
  | .error (err, rest) => .error (err.relocate f, rest.map (Token.relocate f))

@[simp] lemma relocate_ok (a : α) (rest : List Token) :
    relocate f g (.ok (a, rest)) = .ok (g a, rest.map (Token.relocate f)) := rfl

/-- Two readings one after the other have other places if both of them do. -/
lemma relocate_andThen {f : Position → Position} {g : α → β} {g' : γ → δ} {x : Reading α}
    {next : α → List Token → Reading γ} {next' : β → List Token → Reading δ}
    (h : ∀ a rest, x = .ok (a, rest) →
      next' (g a) (rest.map (Token.relocate f)) = (next a rest).relocate f g') :
    (x.relocate f g).andThen next' = (x.andThen next).relocate f g' := by
  cases x with
  | error y => rfl
  | ok found =>
    obtain ⟨a, rest⟩ := found
    exact h a rest rfl

end Reading

namespace Parser

variable {stop : Position}

/-! ## Operands and operators -/

lemma expect_relocate (kind : TokenKind) (ts : List Token) :
    (expect kind (f stop) (ts.map (Token.relocate f))).reading =
      (expect kind stop ts).reading.relocate f (Token.relocate f) := by
  cases ts with
  | nil => rfl
  | cons t ts =>
    rw [List.map_cons]
    by_cases hkind : t.kind = kind
    · rw [expect_cons stop ts hkind, expect_cons (t := t.relocate f) (f stop) _ hkind]
      rfl
    · rw [expect_of_ne stop ts hkind, expect_of_ne (t := t.relocate f) (f stop) _ hkind]
      rfl

/-- The operands of a level have other places if their tokens do. -/
def OperandRelocates (stop : Position) (level : Level) (ts : List Token) : Prop :=
  (operand level (f stop) (ts.map (Token.relocate f))).reading =
    (operand level stop ts).reading.relocate f (Expr.relocate f)

/-- The same for operands with operators between them. -/
def ChainRelocates (stop : Position) (level : Level) (ts : List Token) : Prop :=
  (chain level (f stop) (ts.map (Token.relocate f))).reading =
    (chain level stop ts).reading.relocate f (Expr.relocate f)

variable {f}

lemma operandRelocates_product {ts : List Token}
    (hexprs : ∀ us : List Token, us.length < ts.length → ChainRelocates f stop .sum us) :
    OperandRelocates f stop .product ts := by
  rw [OperandRelocates, operand_product_reading, operand_product_reading]
  cases ts with
  | nil =>
    rw [List.map_nil, factor, factor]
    rfl
  | cons t ts =>
    have hexpr := hexprs ts (Nat.lt_succ_self _)
    rw [ChainRelocates] at hexpr
    rw [List.map_cons]
    rcases opening t with hkind | hkind | ⟨op, hkind⟩ | hkind | hfails
    · rw [factor_integer_reading ts hkind, factor_integer_reading (t := t.relocate f) _ hkind,
        Token.lexeme_relocate]
      cases Numeral.int32? t.lexeme.toList <;> rfl
    · rw [factor_float_reading ts hkind, factor_float_reading (t := t.relocate f) _ hkind,
        Token.lexeme_relocate]
      cases Numeral.float32? t.lexeme.toList <;> rfl
    · rw [factor_sign_reading ts hkind, factor_sign_reading (t := t.relocate f) _ hkind, hexpr]
      exact Reading.relocate_andThen fun e rest _ => rfl
    · rw [factor_group_reading ts hkind, factor_group_reading (t := t.relocate f) _ hkind, hexpr]
      refine Reading.relocate_andThen fun e after _ => ?_
      rw [expect_relocate]
      exact Reading.relocate_andThen fun u rest _ => rfl
    · rw [hfails t stop ts rfl, hfails (t.relocate f) (f stop) _ rfl]
      rfl

/-- The operators of a level have other places if its operands do. -/
lemma readMore_relocate {level : Level} {ts : List Token}
    (hoperands : ∀ us : List Token, us.length ≤ ts.length → OperandRelocates f stop level us)
    (left : Expr) :
    readMore level (f stop) (left.relocate f) (ts.map (Token.relocate f)) =
      (readMore level stop left ts).relocate f (Expr.relocate f) := by
  induction left, ts using readMore_induction level stop with
  | nil left => rw [List.map_nil, readMore_nil, readMore_nil, Reading.relocate_ok, List.map_nil]
  | done left t ts hop =>
    rw [List.map_cons, readMore_of_none hop, readMore_of_none (t := t.relocate f) hop]
    rfl
  | operator left t ts op hop ih =>
    have hoperand := hoperands ts (Nat.le_succ _)
    rw [OperandRelocates] at hoperand
    rw [List.map_cons, readMore_of_some left ts hop, readMore_of_some (t := t.relocate f) _ _ hop,
      hoperand]
    refine Reading.relocate_andThen fun right after hright => ?_
    have hlt : after.length < (t :: ts).length := Nat.lt_succ_of_lt (Parsed.length_lt hright)
    exact ih right after hright fun us hus => hoperands us (by omega)

lemma chainRelocates {level : Level} {ts : List Token}
    (hoperands : ∀ us : List Token, us.length ≤ ts.length → OperandRelocates f stop level us) :
    ChainRelocates f stop level ts := by
  have hoperand := hoperands ts (Nat.le_refl _)
  rw [OperandRelocates] at hoperand
  rw [ChainRelocates, chain_reading, chain_reading, hoperand]
  refine Reading.relocate_andThen fun left after hleft => ?_
  have hlt : after.length < ts.length := Parsed.length_lt hleft
  exact readMore_relocate (fun us hus => hoperands us (by omega)) left

/-- An expression has other places if its tokens do. -/
theorem expr_relocate (ts : List Token) :
    (expr (f stop) (ts.map (Token.relocate f))).reading =
      (expr stop ts).reading.relocate f (Expr.relocate f) := by
  have h := induction_on (OperandRelocates f stop) (ChainRelocates f stop)
    (fun us => operandRelocates_product) ?_ (fun level us => chainRelocates) .sum ts
  · exact h.2
  · intro us hus
    rw [OperandRelocates, operand_sum_reading, operand_sum_reading]
    exact hus

/-! ## Statements -/

lemma statement_relocate (ts : List Token) :
    (statement (f stop) (ts.map (Token.relocate f))).reading =
      (statement stop ts).reading.relocate f (Stmt.relocate f) := by
  rw [statement_reading, statement_reading, expect_relocate]
  refine Reading.relocate_andThen fun t us _ => ?_
  rw [expr_relocate]
  refine Reading.relocate_andThen fun e after _ => ?_
  rw [expect_relocate]
  exact Reading.relocate_andThen fun u rest _ => rfl

/-- **The parser takes no decision by a place.**  Tokens with other places are read as the same
program with the new places, or fail with the same error at the new place. -/
theorem statements_relocate (found : List Stmt) (ts : List Token) :
    (statements (f stop) (found.map (Stmt.relocate f)) (ts.map (Token.relocate f))).1 =
      ((statements stop found ts).1.map (Program.relocate f)).mapError (ParseError.relocate f) := by
  induction found, ts using statements_induction stop with
  | nil found =>
    rw [List.map_nil, statements_nil, statements_nil]
    simp [Except.map, Except.mapError, Program.relocate]
  | comment found t ts hcomment ih =>
    rw [List.map_cons, statements_comment found ts hcomment,
      statements_comment (t := t.relocate f) _ _ hcomment]
    exact ih
  | failed found t ts err rest hcomment hread =>
    have hstatement : (statement (f stop) ((t :: ts).map (Token.relocate f))).reading =
        (statement stop (t :: ts)).reading.relocate f (Stmt.relocate f) :=
      statement_relocate (t :: ts)
    rw [List.map_cons, hread] at hstatement
    rw [List.map_cons, statements_of_error hcomment hread,
      statements_of_error (t := t.relocate f) hcomment hstatement]
    rfl
  | read found t ts s rest hcomment hread ih =>
    have hstatement : (statement (f stop) ((t :: ts).map (Token.relocate f))).reading =
        (statement stop (t :: ts)).reading.relocate f (Stmt.relocate f) :=
      statement_relocate (t :: ts)
    rw [List.map_cons, hread] at hstatement
    rw [List.map_cons, statements_of_ok hcomment hread,
      statements_of_ok (t := t.relocate f) hcomment hstatement, ← List.map_cons]
    exact ih

/-- What has been found before comes first. -/
lemma statements_append_found (found before : List Stmt) (ts : List Token) :
    (statements stop (found ++ before) ts).1 =
      (statements stop found ts).1.map fun p => ⟨before.reverse ++ p.statements⟩ := by
  induction found, ts using statements_induction stop with
  | nil found => simp [Except.map]
  | comment found t ts hcomment ih =>
    rw [statements_comment _ ts hcomment, statements_comment found ts hcomment]
    exact ih
  | failed found t ts err rest hcomment hread =>
    rw [statements_of_error hcomment hread, statements_of_error hcomment hread]
    rfl
  | read found t ts s rest hcomment hread ih =>
    rw [statements_of_ok hcomment hread, statements_of_ok hcomment hread]
    exact ih

lemma statements_found (found : List Stmt) (ts : List Token) :
    (statements stop found ts).1 =
      (statements stop [] ts).1.map fun p => ⟨found.reverse ++ p.statements⟩ :=
  statements_append_found [] found ts

end Parser

end Reckon
