/-
# What the parser's functions give

The functions of the parser carry the number of tokens in their types, so that a statement about
one of them would speak of numbers too.  A `Reading` is the same result without the number: a value
and the tokens that follow it, or an error and the tokens that had not been read.

Each function has one statement here that says when it gives a value, from which all that the parser
accepts can be read off.  For the operators of a level, which the parser collects in a loop, there
are equations for each turn of the loop instead, and so for statements.  What is to be shown of the
two loops is shown by `Parser.readMore_induction` and `Parser.statements_induction`.
-/
import Mathlib.Tactic.Common
import Reckon.Parser

namespace Reckon

/-- What comes of reading: a value and the tokens that follow it, or an error and the tokens that
had not been read when it was found. -/
abbrev Reading (α : Type) := Except (ParseError × List Token) (α × List Token)

namespace Parsed

variable {α : Type} {n : ℕ}

/-- The result without the bound on the number of tokens. -/
def reading : Parsed α n → Reading α
  | done a rest _ => .ok (a, rest)
  | failed e rest => .error (e, rest)

@[simp] lemma reading_done (a : α) (rest : List Token) (h : rest.length < n) :
    (done a rest h).reading = .ok (a, rest) := rfl

@[simp] lemma reading_failed (e : ParseError) (rest : List Token) :
    (failed e rest : Parsed α n).reading = .error (e, rest) := rfl

lemma exists_eq_done {x : Parsed α n} {a : α} {rest : List Token}
    (h : x.reading = .ok (a, rest)) : ∃ hlt : rest.length < n, x = done a rest hlt := by
  cases x with
  | done b rest' hlt =>
    obtain ⟨rfl, rfl⟩ := Prod.mk.inj (Except.ok.inj h)
    exact ⟨hlt, rfl⟩
  | failed e rest' => exact absurd h (by simp)

/-- Fewer tokens follow a value than there were before it. -/
lemma length_lt {x : Parsed α n} {a : α} {rest : List Token} (h : x.reading = .ok (a, rest)) :
    rest.length < n :=
  (exists_eq_done h).1

end Parsed

namespace Parser

variable {stop : Position}

/-! ## Tokens -/

lemma expect_eq_ok_iff {kind : TokenKind} {ts rest : List Token} {t : Token} :
    (expect kind stop ts).reading = .ok (t, rest) ↔ ts = t :: rest ∧ t.kind = kind := by
  unfold expect
  cases ts with
  | nil => simp
  | cons u us =>
    by_cases hkind : u.kind = kind
    · simp only [if_pos hkind, Parsed.reading_done, Except.ok.injEq, Prod.mk.injEq,
        List.cons.injEq]
      constructor
      · rintro ⟨rfl, rfl⟩
        exact ⟨⟨rfl, rfl⟩, hkind⟩
      · rintro ⟨⟨rfl, rfl⟩, -⟩
        exact ⟨rfl, rfl⟩
    · simp only [if_neg hkind, Parsed.reading_failed, reduceCtorEq, false_iff, not_and,
        List.cons.injEq]
      rintro ⟨rfl, -⟩
      exact hkind

lemma expect_cons {kind : TokenKind} {t : Token} (stop : Position) (ts : List Token)
    (h : t.kind = kind) : (expect kind stop (t :: ts)).reading = .ok (t, ts) :=
  expect_eq_ok_iff.mpr ⟨rfl, h⟩

/-! ## Factors -/

lemma factor_int_eq_ok_iff {t : Token} {ts rest : List Token} {e : Expr}
    (hkind : t.kind = .integer) :
    (factor stop (t :: ts)).reading = .ok (e, rest) ↔
      ∃ n, Numeral.int32? t.lexeme.toList = some n ∧ e = .int n t.position ∧ rest = ts := by
  rw [factor.eq_def]
  simp only [hkind]
  cases Numeral.int32? t.lexeme.toList with
  | none => simp
  | some n => simp [eq_comm]

lemma factor_float_eq_ok_iff {t : Token} {ts rest : List Token} {e : Expr}
    (hkind : t.kind = .float) :
    (factor stop (t :: ts)).reading = .ok (e, rest) ↔
      ∃ x, Numeral.float32? t.lexeme.toList = some x ∧ e = .float x t.position ∧ rest = ts := by
  rw [factor.eq_def]
  simp only [hkind]
  cases Numeral.float32? t.lexeme.toList with
  | none => simp
  | some x => simp [eq_comm]

/-- What follows a sign is read if it is an expression. -/
lemma signed_eq_ok_iff {op : Operator} {ts rest : List Token} {e : Expr} :
    (signed op stop ts).reading = .ok (e, rest) ↔
      ∃ x, (chain .sum stop ts).reading = .ok (x, rest) ∧ e = .unary op x := by
  rw [signed]
  cases chain .sum stop ts with
  | failed err after => simp
  | done x after h => simp [eq_comm, and_comm]

/-- The signs are the operators of sums. -/
lemma factor_sign {op : Operator} {t : Token} (ts : List Token)
    (hop : Level.sum.operator? t.kind = some op) :
    (factor stop (t :: ts)).reading = (signed op stop ts).reading := by
  rw [factor.eq_def]
  cases hkind : t.kind with
  | plus | minus =>
    rw [hkind] at hop
    obtain rfl := Option.some.inj hop
    simp only [hkind]
  | _ =>
    rw [hkind] at hop
    exact absurd hop (by simp [Level.operator?])

/-- A group is read if the expression in it and then a closing parenthesis are. -/
lemma factor_group_eq_ok_iff {t : Token} {ts rest : List Token} {e : Expr}
    (hkind : t.kind = .lparen) :
    (factor stop (t :: ts)).reading = .ok (e, rest) ↔
      ∃ x u, (chain .sum stop ts).reading = .ok (x, u :: rest) ∧ u.kind = .rparen ∧
        e = .group x := by
  rw [factor.eq_def]
  simp only [hkind]
  constructor
  · intro h
    cases hinner : chain .sum stop ts with
    | failed err after => simp [hinner] at h
    | done x after hlt =>
      simp only [hinner] at h
      cases hclose : expect .rparen stop after with
      | failed err after' => simp [hclose] at h
      | done u after' hlt' =>
        obtain ⟨rfl, hu⟩ := expect_eq_ok_iff.mp (congrArg Parsed.reading hclose)
        obtain ⟨rfl, rfl⟩ : .group x = e ∧ after' = rest := by simpa [hclose] using h
        exact ⟨x, u, rfl, hu, rfl⟩
  · rintro ⟨x, u, hx, hu, rfl⟩
    obtain ⟨_, hinner⟩ := Parsed.exists_eq_done hx
    obtain ⟨_, hclose⟩ := Parsed.exists_eq_done (expect_cons stop rest hu)
    simp only [hinner, hclose, Parsed.reading_done]

/-- How a factor can be read: as a numeral, a sign with its operand, or a group. -/
inductive Factor (stop : Position) : List Token → Expr → List Token → Prop where
  | int {t : Token} {rest : List Token} {n : Int32} (kind : t.kind = .integer)
      (value : Numeral.int32? t.lexeme.toList = some n) :
      Factor stop (t :: rest) (.int n t.position) rest
  | float {t : Token} {rest : List Token} {x : Float32} (kind : t.kind = .float)
      (value : Numeral.float32? t.lexeme.toList = some x) :
      Factor stop (t :: rest) (.float x t.position) rest
  | sign {op : Operator} {t : Token} {ts rest : List Token} {e : Expr}
      (kind : Level.sum.operator? t.kind = some op)
      (operand : (chain .sum stop ts).reading = .ok (e, rest)) :
      Factor stop (t :: ts) (.unary op e) rest
  | group {t u : Token} {ts rest : List Token} {e : Expr} (left : t.kind = .lparen)
      (inner : (chain .sum stop ts).reading = .ok (e, u :: rest)) (right : u.kind = .rparen) :
      Factor stop (t :: ts) (.group e) rest

theorem factor_eq_ok_iff {ts rest : List Token} {e : Expr} :
    (factor stop ts).reading = .ok (e, rest) ↔ Factor stop ts e rest := by
  constructor
  · intro h
    cases ts with
    | nil => exact absurd h (by simp [factor])
    | cons t ts =>
      cases hkind : t.kind with
      | integer =>
        obtain ⟨n, hn, rfl, rfl⟩ := (factor_int_eq_ok_iff hkind).mp h
        exact .int hkind hn
      | float =>
        obtain ⟨x, hx, rfl, rfl⟩ := (factor_float_eq_ok_iff hkind).mp h
        exact .float hkind hx
      | plus | minus =>
        have hop : Level.sum.operator? t.kind = some _ := congrArg Level.sum.operator? hkind
        rw [factor_sign ts hop] at h
        obtain ⟨x, hx, rfl⟩ := signed_eq_ok_iff.mp h
        exact .sign hop hx
      | lparen =>
        obtain ⟨x, u, hx, hu, rfl⟩ := (factor_group_eq_ok_iff hkind).mp h
        exact .group hkind hx hu
      | _ => exact absurd h (by simp [factor, hkind])
  · intro h
    cases h with
    | int kind value => exact (factor_int_eq_ok_iff kind).mpr ⟨_, value, rfl, rfl⟩
    | float kind value => exact (factor_float_eq_ok_iff kind).mpr ⟨_, value, rfl, rfl⟩
    | sign kind operand =>
      rw [factor_sign _ kind]
      exact signed_eq_ok_iff.mpr ⟨_, operand, rfl⟩
    | group left inner right =>
      exact (factor_group_eq_ok_iff left).mpr ⟨_, _, inner, right, rfl⟩

/-! ## Operands and the operators between them -/

lemma operand_product_reading (ts : List Token) :
    (operand .product stop ts).reading = (factor stop ts).reading := by
  rw [operand]

lemma operand_sum_reading (ts : List Token) :
    (operand .sum stop ts).reading = (chain .product stop ts).reading := by
  rw [operand]

/-- What is read behind a left operand. -/
def readMore (level : Level) (stop : Position) (left : Expr) (ts : List Token) : Reading Expr :=
  (more level stop (ts.length + 1) left ts (Nat.lt_succ_self _)).reading

/-- The loop does not depend on the number that bounds it. -/
lemma more_reading {level : Level} {n : ℕ} {left : Expr} {ts : List Token} (h : ts.length < n) :
    (more level stop n left ts h).reading = readMore level stop left ts := by
  suffices hbounds : ∀ (k : ℕ) (ts : List Token), ts.length = k → ∀ (left : Expr) (m n : ℕ)
      (hm : ts.length < m) (hn : ts.length < n),
      (more level stop m left ts hm).reading = (more level stop n left ts hn).reading from
    hbounds _ ts rfl left n _ h _
  intro k
  induction k using Nat.strongRecOn with
  | ind k ih =>
    rintro ts rfl left m n hm hn
    rw [more.eq_def, more.eq_def level stop n]
    cases ts with
    | nil => rfl
    | cons t ts =>
      cases hop : level.operator? t.kind with
      | none => simp only [hop, Parsed.reading_done]
      | some op =>
        simp only [hop]
        cases operand level stop ts with
        | failed err after => rfl
        | done right after hlt => exact ih after.length (Nat.lt_succ_of_lt hlt) after rfl _ _ _ _ _

@[simp] lemma readMore_nil (level : Level) (left : Expr) :
    readMore level stop left [] = .ok (left, []) := by
  rw [readMore, more.eq_def]
  rfl

/-- The loop ends at a token that is no operator of the level. -/
lemma readMore_of_none {level : Level} {left : Expr} {t : Token} {ts : List Token}
    (h : level.operator? t.kind = none) :
    readMore level stop left (t :: ts) = .ok (left, t :: ts) := by
  rw [readMore, more.eq_def]
  simp only [h, Parsed.reading_done]

/-- The loop goes on at an operator of the level, if its right operand can be read. -/
lemma readMore_eq_ok_iff {level : Level} {op : Operator} {left e : Expr} {t : Token}
    {ts rest : List Token} (h : level.operator? t.kind = some op) :
    readMore level stop left (t :: ts) = .ok (e, rest) ↔
      ∃ right after, (operand level stop ts).reading = .ok (right, after) ∧
        readMore level stop (.binary op left right t.position) after = .ok (e, rest) := by
  rw [readMore, more.eq_def]
  simp only [h]
  cases operand level stop ts with
  | failed err after => simp
  | done right after hlt => simp [more_reading]

/-- What holds where the loop of a level ends, and at an operator whenever it holds behind the right
operand, holds of all left operands and of all that follows them. -/
theorem readMore_induction (level : Level) (stop : Position) {motive : Expr → List Token → Prop}
    (nil : ∀ left, motive left [])
    (done : ∀ left t ts, level.operator? t.kind = none → motive left (t :: ts))
    (operator : ∀ left t ts op, level.operator? t.kind = some op →
      (∀ right rest, (operand level stop ts).reading = .ok (right, rest) →
        motive (.binary op left right t.position) rest) → motive left (t :: ts))
    (left : Expr) (ts : List Token) : motive left ts := by
  induction hn : ts.length using Nat.strongRecOn generalizing left ts with
  | ind n ih =>
    subst hn
    cases ts with
    | nil => exact nil left
    | cons t ts =>
      cases hop : level.operator? t.kind with
      | none => exact done left t ts hop
      | some op =>
        refine operator left t ts op hop fun right rest hright => ?_
        have hlt : rest.length < (t :: ts).length := Nat.lt_succ_of_lt (Parsed.length_lt hright)
        exact ih rest.length hlt _ rest rfl

/-- The operators of a level are read behind a first operand. -/
lemma chain_eq_ok_iff {level : Level} {e : Expr} {ts rest : List Token} :
    (chain level stop ts).reading = .ok (e, rest) ↔
      ∃ left after, (operand level stop ts).reading = .ok (left, after) ∧
        readMore level stop left after = .ok (e, rest) := by
  rw [chain]
  cases operand level stop ts with
  | failed err after => simp
  | done left after hlt => simp [more_reading]

/-! ## Statements -/

lemma statement_eq_ok_iff {ts rest : List Token} {s : Stmt} :
    (statement stop ts).reading = .ok (s, rest) ↔
      ∃ t us e u, ts = t :: us ∧ t.kind = .print ∧
        (expr stop us).reading = .ok (e, u :: rest) ∧ u.kind = .semi ∧ s = .print e := by
  rw [statement]
  constructor
  · intro h
    cases hprint : expect .print stop ts with
    | failed err after => simp [hprint] at h
    | done t us hlt =>
      obtain ⟨rfl, ht⟩ := expect_eq_ok_iff.mp (congrArg Parsed.reading hprint)
      simp only [hprint] at h
      cases hexpr : expr stop us with
      | failed err after => simp [hexpr] at h
      | done e after hlt' =>
        simp only [hexpr] at h
        cases hsemi : expect .semi stop after with
        | failed err after' => simp [hsemi] at h
        | done u after' hlt'' =>
          obtain ⟨rfl, hu⟩ := expect_eq_ok_iff.mp (congrArg Parsed.reading hsemi)
          obtain ⟨rfl, rfl⟩ : .print e = s ∧ after' = rest := by simpa [hsemi] using h
          exact ⟨t, us, e, u, rfl, ht, by rw [hexpr]; rfl, hu, rfl⟩
  · rintro ⟨t, us, e, u, rfl, ht, he, hu, rfl⟩
    obtain ⟨_, hprint⟩ := Parsed.exists_eq_done (expect_cons stop us ht)
    obtain ⟨_, hexpr⟩ := Parsed.exists_eq_done he
    obtain ⟨_, hsemi⟩ := Parsed.exists_eq_done (expect_cons stop rest hu)
    simp only [hprint, hexpr, hsemi, Parsed.reading_done]

@[simp] lemma statements_nil (found : List Stmt) :
    statements stop found [] = (.ok ⟨found.reverse⟩, []) := by
  rw [statements.eq_def]

lemma statements_comment {t : Token} (found : List Stmt) (ts : List Token)
    (h : t.kind = .comment) : statements stop found (t :: ts) = statements stop found ts := by
  rw [statements.eq_def]
  simp only [if_pos h]

lemma statements_of_ok {found : List Stmt} {t : Token} {ts rest : List Token} {s : Stmt}
    (hne : t.kind ≠ .comment) (h : (statement stop (t :: ts)).reading = .ok (s, rest)) :
    statements stop found (t :: ts) = statements stop (s :: found) rest := by
  obtain ⟨_, hstatement⟩ := Parsed.exists_eq_done h
  rw [statements.eq_def]
  simp only [if_neg hne, hstatement]

lemma statements_of_error {found : List Stmt} {t : Token} {ts rest : List Token} {err : ParseError}
    (hne : t.kind ≠ .comment) (h : (statement stop (t :: ts)).reading = .error (err, rest)) :
    statements stop found (t :: ts) = (.error err, rest) := by
  rw [statements.eq_def]
  cases hstatement : statement stop (t :: ts) with
  | done s after hlt => exact absurd h (by simp [hstatement])
  | failed err' after =>
    obtain ⟨rfl, rfl⟩ : err' = err ∧ after = rest := by simpa [hstatement] using h
    simp only [if_neg hne, hstatement]

/-- What holds at the end of the input and where a statement fails, and goes on holding in front of
a comment and of a statement, holds of all tokens. -/
theorem statements_induction (stop : Position) {motive : List Stmt → List Token → Prop}
    (nil : ∀ found, motive found [])
    (comment : ∀ found t ts, t.kind = .comment → motive found ts → motive found (t :: ts))
    (failed : ∀ found t ts err rest, t.kind ≠ .comment →
      (statement stop (t :: ts)).reading = .error (err, rest) → motive found (t :: ts))
    (read : ∀ found t ts s rest, t.kind ≠ .comment →
      (statement stop (t :: ts)).reading = .ok (s, rest) → motive (s :: found) rest →
      motive found (t :: ts))
    (found : List Stmt) (ts : List Token) : motive found ts := by
  induction hn : ts.length using Nat.strongRecOn generalizing found ts with
  | ind n ih =>
    subst hn
    cases ts with
    | nil => exact nil found
    | cons t ts =>
      by_cases hcomment : t.kind = .comment
      · exact comment found t ts hcomment (ih ts.length (Nat.lt_succ_self _) found ts rfl)
      · cases hread : (statement stop (t :: ts)).reading with
        | error y => exact failed found t ts y.1 y.2 hcomment hread
        | ok y =>
          have hlt : y.2.length < (t :: ts).length := Parsed.length_lt hread
          exact read found t ts y.1 y.2 hcomment hread (ih y.2.length hlt (y.1 :: found) y.2 rfl)

end Parser

end Reckon
