/-
# Canonical trees

The tokens of a program are its yield: the trees written out from left to right, without any
parentheses but those of groups, and with comments between the statements.  Different trees have the
same yield, and the parser finds one of them, the canonical one.  In a canonical tree the rank of a
right operand is below that of its operator, the rank of a left operand is not above it, and no left
operand ends with the operand of a sign, since a sign takes all that follows.

`Expr.IsRead m k ts e rest` says that the yield of a canonical expression `e` of a rank up to `m`
stands at the beginning of `ts`, and that in what follows it, `rest`, no operator of a rank up to
`k` comes first.  A factor is of rank 0, a product of rank 1 and a sum of rank 2.  The statements
about an operator, a sign and a group take such an expression apart, as the parser does that finds
it.
-/
import Reckon.Proofs.Reading

namespace Reckon

/-! ## Operators and their tokens -/

namespace Operator

/-- The kind of the tokens that stand for an operator. -/
def tokenKind : Operator → TokenKind
  | plus => .plus
  | minus => .minus
  | times => .times
  | divide => .divide

/-- The level of an operator. -/
def level : Operator → Level
  | plus | minus => .sum
  | times | divide => .product

end Operator

lemma Level.rank_inj {k l : Level} (h : k.rank = l.rank) : k = l := by
  revert h
  cases k <;> cases l <;> simp [rank]

lemma Level.operator?_eq_some_iff {level : Level} {kind : TokenKind} {op : Operator} :
    level.operator? kind = some op ↔ op.level = level ∧ kind = op.tokenKind := by
  cases level <;> cases kind <;> cases op <;>
    simp [Level.operator?, Operator.level, Operator.tokenKind]

namespace Expr

/-! ## Yields -/

/-- The tokens of an expression.  A literal and an operator stand at the place that the tree has
for them, and a numeral is read as the value of the literal. -/
inductive Yields : Expr → List Token → Prop where
  | int {t : Token} {n : Int32} (kind : t.kind = .integer)
      (value : Numeral.int32? t.lexeme.toList = some n) : Yields (.int n t.position) [t]
  | float {t : Token} {x : Float32} (kind : t.kind = .float)
      (value : Numeral.float32? t.lexeme.toList = some x) : Yields (.float x t.position) [t]
  | binary {op : Operator} {l r : Expr} {t : Token} {ts us : List Token} (left : l.Yields ts)
      (operator : t.kind = op.tokenKind) (right : r.Yields us) :
      Yields (.binary op l r t.position) (ts ++ t :: us)
  | unary {op : Operator} {e : Expr} {t : Token} {ts : List Token}
      (sign : t.kind = op.tokenKind) (operand : e.Yields ts) : Yields (.unary op e) (t :: ts)
  | group {e : Expr} {t u : Token} {ts : List Token} (left : t.kind = .lparen)
      (inner : e.Yields ts) (right : u.kind = .rparen) : Yields (.group e) (t :: (ts ++ [u]))

/-! ## Canonical expressions -/

/-- How loosely the root of an expression holds it together: 2 for the operators of sums, 1 for
those of products and 0 for everything else. -/
def rank : Expr → ℕ
  | binary op .. => op.level.rank + 1
  | _ => 0

/-- An expression ends with the operand of a sign that is in no group. -/
def OpenRight : Expr → Prop
  | unary .. => True
  | binary _ _ r _ => r.OpenRight
  | _ => False

/-- A tree as the parser builds it. -/
inductive Canonical : Expr → Prop where
  | int (n : Int32) (p : Position) : Canonical (.int n p)
  | float (x : Float32) (p : Position) : Canonical (.float x p)
  /-- The left operand of `*` and `/` is no sum, their right operand is neither a sum nor a product,
  and the right operand of `+` and `-` is no sum. -/
  | binary {op : Operator} {l r : Expr} {p : Position} (left : l.Canonical) (right : r.Canonical)
      (rank_left : l.rank ≤ op.level.rank + 1) (rank_right : r.rank ≤ op.level.rank)
      (closed : ¬ l.OpenRight) : Canonical (.binary op l r p)
  /-- The signs are `+` and `-`. -/
  | unary {op : Operator} {e : Expr} (sign : op = .plus ∨ op = .minus) (operand : e.Canonical) :
      Canonical (.unary op e)
  | group {e : Expr} (inner : e.Canonical) : Canonical (.group e)

end Expr

/-! ## What stops the parser -/

/-- If the first token is an operator, it is of a rank above `k`. -/
def Halts (k : ℕ) (ts : List Token) : Prop :=
  ∀ t ∈ ts.head?, ∀ op : Operator, t.kind = op.tokenKind → k ≤ op.level.rank

namespace Halts

lemma mono {k m : ℕ} {ts : List Token} (h : Halts m ts) (hle : k ≤ m) : Halts k ts :=
  fun t ht op hop => Nat.le_trans hle (h t ht op hop)

lemma zero (ts : List Token) : Halts 0 ts := fun _ _ _ _ => Nat.zero_le _

lemma nil (k : ℕ) : Halts k [] := fun t ht => absurd ht (by simp)

lemma cons_iff {k : ℕ} {t : Token} {ts : List Token} :
    Halts k (t :: ts) ↔ ∀ op : Operator, t.kind = op.tokenKind → k ≤ op.level.rank := by
  simp [Halts]

/-- An operator is of a rank above that of the operands of its level. -/
lemma of_tokenKind {op : Operator} {t : Token} {ts : List Token} (h : t.kind = op.tokenKind) :
    Halts op.level.rank (t :: ts) := by
  rw [cons_iff]
  intro op' hop'
  obtain rfl : op = op' := by
    rw [h] at hop'
    revert hop'
    cases op <;> cases op' <;> simp [Operator.tokenKind]
  exact Nat.le_refl _

/-- No operator comes first where a group or a statement is closed. -/
lemma of_close {k : ℕ} {t : Token} {ts : List Token} (h : t.kind = .rparen ∨ t.kind = .semi) :
    Halts k (t :: ts) := by
  rw [cons_iff]
  intro op hop
  exfalso
  rw [hop] at h
  cases op <;> simp [Operator.tokenKind] at h

/-- The loop of a level ends where no operator of the level follows. -/
lemma readMore_eq {level : Level} {stop : Position} {left : Expr} {ts : List Token}
    (h : Halts (level.rank + 1) ts) : Parser.readMore level stop left ts = .ok (left, ts) := by
  cases ts with
  | nil => exact Parser.readMore_nil level left
  | cons t ts =>
    apply Parser.readMore_of_none
    cases hop : level.operator? t.kind with
    | none => rfl
    | some op =>
      obtain ⟨rfl, hkind⟩ := Level.operator?_eq_some_iff.mp hop
      have hle := cons_iff.mp h op hkind
      omega

/-- If no operator of a level follows, the ranks of what follows are above that level. -/
lemma succ_of_none {level : Level} {t : Token} {ts : List Token} (h : Halts level.rank (t :: ts))
    (hnone : level.operator? t.kind = none) : Halts (level.rank + 1) (t :: ts) := by
  rw [cons_iff] at h ⊢
  intro op hop
  have hne : op.level ≠ level := by
    intro hlevel
    rw [Level.operator?_eq_some_iff.mpr ⟨hlevel, hop⟩] at hnone
    exact absurd hnone (by simp)
  have hle := h op hop
  have hrank : op.level.rank ≠ level.rank := fun heq => hne (Level.rank_inj heq)
  omega

end Halts

/-! ## What the parser reads -/

namespace Expr

/-- At the beginning of `ts` stands a canonical expression `e` of a rank up to `m`, and `rest`
follows it, where the operators are of ranks above `k`; behind the operand of a sign there are no
operators at all. -/
structure IsRead (m k : ℕ) (ts : List Token) (e : Expr) (rest : List Token) : Prop where
  yields : ∃ used, ts = used ++ rest ∧ e.Yields used
  canonical : e.Canonical
  rank_le : e.rank ≤ m
  halts : Halts k rest
  closed : e.OpenRight → Halts 2 rest

lemma rank_le_two (e : Expr) : e.rank ≤ 2 := by
  cases e with
  | binary op l r p => cases op <;> simp [rank, Operator.level, Level.rank]
  | _ => exact Nat.zero_le 2

namespace IsRead

variable {m k : ℕ} {ts rest : List Token}

/-- An expression that no operator follows is read whole. -/
lemma whole {e : Expr} {used : List Token} (hyields : e.Yields used) (hcanonical : e.Canonical)
    (hhalts : Halts 2 rest) : IsRead 2 2 (used ++ rest) e rest :=
  ⟨⟨used, rfl, hyields⟩, hcanonical, e.rank_le_two, hhalts, fun _ => hhalts⟩

lemma length_le {e : Expr} (h : IsRead m k ts e rest) : rest.length ≤ ts.length := by
  obtain ⟨used, rfl, -⟩ := h.yields
  simp

lemma int {t : Token} {n : Int32} (kind : t.kind = .integer)
    (value : Numeral.int32? t.lexeme.toList = some n) (halts : Halts k rest) :
    IsRead m k (t :: rest) (.int n t.position) rest :=
  ⟨⟨[t], rfl, .int kind value⟩, .int _ _, Nat.zero_le _, halts, False.elim⟩

lemma float {t : Token} {x : Float32} (kind : t.kind = .float)
    (value : Numeral.float32? t.lexeme.toList = some x) (halts : Halts k rest) :
    IsRead m k (t :: rest) (.float x t.position) rest :=
  ⟨⟨[t], rfl, .float kind value⟩, .float _ _, Nat.zero_le _, halts, False.elim⟩

/-- An operator between its operands.  The left one is not open to the right, since the operator
follows it. -/
theorem binary_iff {op : Operator} {l r : Expr} {p : Position} :
    IsRead (op.level.rank + 1) op.level.rank ts (.binary op l r p) rest ↔
      ∃ t us, t.position = p ∧ t.kind = op.tokenKind ∧
        IsRead (op.level.rank + 1) op.level.rank ts l (t :: us) ∧
        IsRead op.level.rank op.level.rank us r rest := by
  constructor
  · rintro ⟨⟨used, rfl, hyields⟩, hcanonical, -, hhalts, hclosed⟩
    cases hyields with
    | @binary _ _ _ t us vs left operator right =>
      cases hcanonical with
      | binary cleft cright rleft rright hopen =>
        refine ⟨t, vs ++ rest, rfl, operator, ?_, ?_⟩
        · exact ⟨⟨us, by simp, left⟩, cleft, rleft, .of_tokenKind operator,
            fun hl => absurd hl hopen⟩
        · exact ⟨⟨vs, rfl, right⟩, cright, rright, hhalts, hclosed⟩
  · rintro ⟨t, us, rfl, hkind, hl, hr⟩
    obtain ⟨left, rfl, hleft⟩ := hl.yields
    obtain ⟨right, rfl, hright⟩ := hr.yields
    have hopen : ¬ l.OpenRight := by
      intro hl'
      have hle := Halts.cons_iff.mp (hl.closed hl') op hkind
      revert hle
      cases op <;> simp [Operator.level, Level.rank]
    exact ⟨⟨left ++ t :: right, by simp, .binary hleft hkind hright⟩,
      .binary hl.canonical hr.canonical hl.rank_le hr.rank_le hopen, Nat.le_refl _, hr.halts,
      hr.closed⟩

/-- A sign and its operand, which is as long as it can be. -/
theorem unary_iff {op : Operator} {e : Expr} :
    IsRead 0 0 ts (.unary op e) rest ↔
      ∃ t us, ts = t :: us ∧ Level.sum.operator? t.kind = some op ∧ IsRead 2 2 us e rest := by
  constructor
  · rintro ⟨⟨used, rfl, hyields⟩, hcanonical, -, -, hclosed⟩
    cases hyields with
    | @unary _ _ t us sign operand =>
      cases hcanonical with
      | unary hop canonical =>
        have hlevel : op.level = .sum := by rcases hop with rfl | rfl <;> rfl
        exact ⟨t, us ++ rest, rfl, Level.operator?_eq_some_iff.mpr ⟨hlevel, sign⟩,
          .whole operand canonical (hclosed trivial)⟩
  · rintro ⟨t, us, rfl, hkind, he⟩
    obtain ⟨used, rfl, hyields⟩ := he.yields
    obtain ⟨hlevel, hsign⟩ := Level.operator?_eq_some_iff.mp hkind
    have hop : op = .plus ∨ op = .minus := by
      revert hlevel
      cases op <;> simp [Operator.level]
    exact ⟨⟨t :: used, rfl, .unary hsign hyields⟩, .unary hop he.canonical, Nat.le_refl _, .zero _,
      fun _ => he.halts⟩

/-- An expression in parentheses. -/
theorem group_iff {e : Expr} :
    IsRead 0 0 ts (.group e) rest ↔
      ∃ t u us, ts = t :: us ∧ t.kind = .lparen ∧ u.kind = .rparen ∧
        IsRead 2 2 us e (u :: rest) := by
  constructor
  · rintro ⟨⟨used, rfl, hyields⟩, hcanonical, -, -, -⟩
    cases hyields with
    | @group _ t u us left inner right =>
      cases hcanonical with
      | group canonical =>
        exact ⟨t, u, us ++ u :: rest, by simp, left, right,
          .whole inner canonical (.of_close (.inl right))⟩
  · rintro ⟨t, u, us, rfl, hleft, hright, he⟩
    obtain ⟨used, rfl, hyields⟩ := he.yields
    exact ⟨⟨t :: (used ++ [u]), by simp, .group hleft hyields hright⟩, .group he.canonical,
      Nat.le_refl _, .zero _, False.elim⟩

end IsRead

end Expr

end Reckon
