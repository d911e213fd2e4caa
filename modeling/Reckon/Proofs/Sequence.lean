/-
# The parser in sequence

Each function of the parser calls others one after the other and stops at the first error.  In the
module on readings it is said when a function gives a value; here there is one equation for each
function, which speaks of its errors too.  `Reading.andThen` goes on behind a value and keeps an
error as it is.

The functions for operands, for the operators between them and for factors call each other.  What is
to be shown of all of them is shown by `Parser.induction_on`: for factors from what holds of
expressions that begin later, and for the operators of a level from what holds of its operands.
-/
import Reckon.Proofs.Reading

namespace Reckon

namespace Reading

variable {α β : Type}

/-- Reads on behind a value. -/
def andThen (x : Reading α) (f : α → List Token → Reading β) : Reading β :=
  x.bind fun found => f found.1 found.2

@[simp] lemma andThen_ok (a : α) (rest : List Token) (f : α → List Token → Reading β) :
    andThen (.ok (a, rest)) f = f a rest := rfl

@[simp] lemma andThen_error (y : ParseError × List Token) (f : α → List Token → Reading β) :
    andThen (.error y) f = .error y := rfl

/-- An error is that of the first reading, or of the one behind its value. -/
lemma andThen_eq_error_iff {x : Reading α} {f : α → List Token → Reading β}
    {y : ParseError × List Token} :
    x.andThen f = .error y ↔ x = .error y ∨ ∃ a rest, x = .ok (a, rest) ∧ f a rest = .error y := by
  cases x with
  | error z => simp
  | ok found =>
    obtain ⟨a, rest⟩ := found
    simp

end Reading

namespace Parser

variable {stop : Position}

/-! ## Tokens -/

lemma expect_of_ne {kind : TokenKind} {t : Token} (stop : Position) (ts : List Token)
    (h : t.kind ≠ kind) : (expect kind stop (t :: ts)).reading =
      .error (⟨.unexpectedToken kind t.kind, t.position⟩, t :: ts) := by
  simp only [expect, if_neg h, Parsed.reading_failed]
  rfl

/-! ## Factors -/

lemma factor_integer_reading {t : Token} (ts : List Token) (h : t.kind = .integer) :
    (factor stop (t :: ts)).reading =
      match Numeral.int32? t.lexeme.toList with
      | some n => .ok (.int n t.position, ts)
      | none => .error (⟨.invalidInteger t.lexeme, t.position⟩, ts) := by
  rw [factor.eq_def]
  simp only [h]
  cases Numeral.int32? t.lexeme.toList <;> rfl

lemma factor_float_reading {t : Token} (ts : List Token) (h : t.kind = .float) :
    (factor stop (t :: ts)).reading =
      match Numeral.float32? t.lexeme.toList with
      | some x => .ok (.float x t.position, ts)
      | none => .error (⟨.invalidFloat t.lexeme, t.position⟩, ts) := by
  rw [factor.eq_def]
  simp only [h]
  cases Numeral.float32? t.lexeme.toList <;> rfl

lemma signed_reading (op : Operator) (ts : List Token) :
    (signed op stop ts).reading =
      (chain .sum stop ts).reading.andThen fun e rest => .ok (.unary op e, rest) := by
  rw [signed]
  cases chain .sum stop ts <;> rfl

lemma factor_sign_reading {op : Operator} {t : Token} (ts : List Token)
    (h : Level.sum.operator? t.kind = some op) :
    (factor stop (t :: ts)).reading =
      (chain .sum stop ts).reading.andThen fun e rest => .ok (.unary op e, rest) :=
  (factor_sign ts h).trans (signed_reading op ts)

lemma factor_group_reading {t : Token} (ts : List Token) (h : t.kind = .lparen) :
    (factor stop (t :: ts)).reading =
      (chain .sum stop ts).reading.andThen fun e after =>
        (expect .rparen stop after).reading.andThen fun _ rest => .ok (.group e, rest) := by
  rw [factor.eq_def]
  simp only [h]
  cases chain .sum stop ts with
  | failed err after => rfl
  | done e after hlt =>
    simp only [Parsed.reading_done, Reading.andThen_ok]
    cases expect .rparen stop after <;> rfl

/-- How the first token of a factor is taken: as a numeral, a sign, an opening parenthesis, or not
at all. -/
inductive Opening (t : Token) : Prop where
  | integer (kind : t.kind = .integer)
  | float (kind : t.kind = .float)
  | sign (op : Operator) (kind : Level.sum.operator? t.kind = some op)
  | group (kind : t.kind = .lparen)
  | none (fails : ∀ (u : Token) (stop : Position) (ts : List Token), u.kind = t.kind →
      (factor stop (u :: ts)).reading = .error (⟨.noExpression u.kind, u.position⟩, u :: ts))

lemma opening (t : Token) : Opening t := by
  cases hkind : t.kind with
  | integer => exact .integer hkind
  | float => exact .float hkind
  | plus | minus => exact .sign _ (congrArg Level.sum.operator? hkind)
  | lparen => exact .group hkind
  | _ =>
    refine .none fun u stop ts hu => ?_
    rw [factor.eq_def]
    simp only [hu.trans hkind, Parsed.reading_failed]

/-! ## Operands and the operators between them -/

lemma chain_reading (level : Level) (ts : List Token) :
    (chain level stop ts).reading =
      (operand level stop ts).reading.andThen (readMore level stop) := by
  rw [chain]
  cases operand level stop ts with
  | failed err after => rfl
  | done left after hlt => simp [more_reading]

lemma readMore_of_some {level : Level} {op : Operator} {t : Token} (left : Expr) (ts : List Token)
    (h : level.operator? t.kind = some op) :
    readMore level stop left (t :: ts) =
      (operand level stop ts).reading.andThen fun right after =>
        readMore level stop (.binary op left right t.position) after := by
  rw [readMore, more.eq_def]
  simp only [h]
  cases operand level stop ts with
  | failed err after => rfl
  | done right after hlt => simp [more_reading]

/-- What holds of factors if it holds of the expressions that begin later, of the operators of a
level if it holds of its operands, and of the operands of sums if it holds of products, holds of
all operands and of all operators. -/
theorem induction_on (operands chains : Level → List Token → Prop)
    (factor : ∀ ts, (∀ us : List Token, us.length < ts.length → chains .sum us) →
      operands .product ts)
    (product : ∀ ts, chains .product ts → operands .sum ts)
    (chain : ∀ level ts, (∀ us : List Token, us.length ≤ ts.length → operands level us) →
      chains level ts)
    (level : Level) (ts : List Token) : operands level ts ∧ chains level ts := by
  induction hn : ts.length using Nat.strongRecOn generalizing level ts with
  | ind n ih =>
    subst hn
    have hproduct : ∀ us : List Token, us.length ≤ ts.length → operands .product us := by
      intro us hus
      exact factor us fun vs hvs => (ih vs.length (by omega) .sum vs rfl).2
    have hsum : ∀ us : List Token, us.length ≤ ts.length → operands .sum us := by
      intro us hus
      exact product us (chain .product us fun vs hvs => hproduct vs (by omega))
    cases level with
    | product => exact ⟨hproduct ts (Nat.le_refl _), chain .product ts hproduct⟩
    | sum => exact ⟨hsum ts (Nat.le_refl _), chain .sum ts hsum⟩

/-! ## Statements -/

lemma statement_reading (ts : List Token) :
    (statement stop ts).reading =
      (expect .print stop ts).reading.andThen fun _ us =>
        (expr stop us).reading.andThen fun e after =>
          (expect .semi stop after).reading.andThen fun _ rest => .ok (.print e, rest) := by
  rw [statement]
  cases expect .print stop ts with
  | failed err after => rfl
  | done t us hlt =>
    simp only [Parsed.reading_done, Reading.andThen_ok]
    cases expr stop us with
    | failed err after => rfl
    | done e after hlt' =>
      simp only [Parsed.reading_done, Reading.andThen_ok]
      cases expect .semi stop after <;> rfl

end Parser

end Reckon
