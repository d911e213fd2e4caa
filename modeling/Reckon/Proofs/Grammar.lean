/-
# The parser accepts the words of the grammar

The grammar of programs is given here by its rules, one constructor for each, and it speaks of the
kinds of tokens only.  It is ambiguous: the operand of a sign is a whole expression, so that in
`- a * b` the product may be inside the operand or may have the sign in its left factor.  The parser
follows one derivation.  That it misses no word is a statement about all of them.

Both directions go through canonical trees, since those are what the parser finds.  The yield of a
canonical tree is derived from the nonterminal that belongs to the rank of the tree.  Conversely a
word that is derived in any way is the yield of a canonical tree: the yields of canonical
expressions are closed under putting an operator between two of them (`Expr.IsYield.operator`),
although the two trees are not simply the operands then.

The main result is `Program.exists_ofTokens_eq_ok_iff`.
-/
import Reckon.Proofs.Exactness

namespace Reckon

/-! ## The rules -/

/-- The nonterminals of the grammar. -/
inductive Nonterminal where
  | program
  | statement
  | expression
  | sum
  | product
  | factor

namespace Nonterminal

/-- The words that the rules of the grammar derive from a nonterminal. -/
inductive Derives : Nonterminal → List Token → Prop where
  | program_nil : Derives .program []
  | program_cons {ts us : List Token} (first : Derives .statement ts)
      (others : Derives .program us) : Derives .program (ts ++ us)
  | statement_print {t u : Token} {ts : List Token} (keyword : t.kind = .print)
      (value : Derives .expression ts) (semi : u.kind = .semi) :
      Derives .statement (t :: (ts ++ [u]))
  | statement_comment {t : Token} (comment : t.kind = .comment) : Derives .statement [t]
  | expression {ts : List Token} (sum : Derives .sum ts) : Derives .expression ts
  | sum_one {ts : List Token} (first : Derives .product ts) : Derives .sum ts
  | sum_more {ts us : List Token} {t : Token} (left : Derives .sum ts)
      (operator : t.kind = .plus ∨ t.kind = .minus) (right : Derives .product us) :
      Derives .sum (ts ++ t :: us)
  | product_one {ts : List Token} (first : Derives .factor ts) : Derives .product ts
  | product_more {ts us : List Token} {t : Token} (left : Derives .product ts)
      (operator : t.kind = .times ∨ t.kind = .divide) (right : Derives .factor us) :
      Derives .product (ts ++ t :: us)
  | factor_integer {t : Token} (kind : t.kind = .integer) : Derives .factor [t]
  | factor_float {t : Token} (kind : t.kind = .float) : Derives .factor [t]
  | factor_sign {t : Token} {ts : List Token} (sign : t.kind = .plus ∨ t.kind = .minus)
      (operand : Derives .expression ts) : Derives .factor (t :: ts)
  | factor_group {t u : Token} {ts : List Token} (left : t.kind = .lparen)
      (inner : Derives .expression ts) (right : u.kind = .rparen) :
      Derives .factor (t :: (ts ++ [u]))

end Nonterminal

/-- A numeral is that of a number of its kind.  Other tokens are readable in any case. -/
structure Token.Readable (t : Token) : Prop where
  integer : t.kind = .integer → ∃ n, Numeral.int32? t.lexeme.toList = some n
  float : t.kind = .float → ∃ x, Numeral.float32? t.lexeme.toList = some x

/-- A token that is no numeral is readable. -/
lemma Token.Readable.of_kind {t : Token} {kind : TokenKind} (h : t.kind = kind)
    (hinteger : kind ≠ .integer := by simp) (hfloat : kind ≠ .float := by simp) : t.Readable :=
  ⟨fun hkind => absurd (h.symm.trans hkind) hinteger,
    fun hkind => absurd (h.symm.trans hkind) hfloat⟩

lemma Operator.readable {op : Operator} {t : Token} (h : t.kind = op.tokenKind) : t.Readable := by
  have hinteger : op.tokenKind ≠ .integer := by cases op <;> simp [tokenKind]
  have hfloat : op.tokenKind ≠ .float := by cases op <;> simp [tokenKind]
  exact .of_kind h hinteger hfloat

/-! ## Yields of canonical trees are words -/

namespace Nonterminal

/-- The nonterminal of the expressions of a rank. -/
def ofRank : ℕ → Nonterminal
  | 0 => factor
  | 1 => product
  | _ => sum

/-- What is derived at a lower rank is derived at a higher one. -/
lemma Derives.mono {k m : ℕ} {ts : List Token} (h : (ofRank k).Derives ts) (hle : k ≤ m) :
    (ofRank m).Derives ts := by
  match k, m, hle with
  | 0, 0, _ => exact h
  | 0, 1, _ => exact .product_one h
  | 0, _ + 2, _ => exact .sum_one (.product_one h)
  | 1, 1, _ => exact h
  | 1, _ + 2, _ => exact .sum_one h
  | _ + 2, _ + 2, _ => exact h

/-- An expression of any rank is an expression. -/
lemma Derives.expression_of_rank {k : ℕ} {ts : List Token} (h : (ofRank k).Derives ts) :
    Nonterminal.expression.Derives ts :=
  .expression (h.mono (Nat.le_add_right k 2))

/-- An operator between operands of the ranks of its level. -/
lemma Derives.operator {op : Operator} {t : Token} {ts us : List Token}
    (left : (ofRank (op.level.rank + 1)).Derives ts) (kind : t.kind = op.tokenKind)
    (right : (ofRank op.level.rank).Derives us) :
    (ofRank (op.level.rank + 1)).Derives (ts ++ t :: us) := by
  cases op with
  | plus => exact .sum_more left (.inl kind) right
  | minus => exact .sum_more left (.inr kind) right
  | times => exact .product_more left (.inl kind) right
  | divide => exact .product_more left (.inr kind) right

end Nonterminal

namespace Expr

lemma Yields.derives {e : Expr} {ts : List Token} (h : e.Yields ts) (hcanonical : e.Canonical) :
    (Nonterminal.ofRank e.rank).Derives ts := by
  induction h with
  | int kind _ => exact .factor_integer kind
  | float kind _ => exact .factor_float kind
  | binary _ operator _ ihl ihr =>
    cases hcanonical with
    | binary cleft cright rank_left rank_right _ =>
      exact .operator ((ihl cleft).mono rank_left) operator ((ihr cright).mono rank_right)
  | unary sign _ ih =>
    cases hcanonical with
    | unary hop canonical =>
      have hkind := hop.imp (fun h => sign.trans (congrArg _ h)) fun h => sign.trans (congrArg _ h)
      exact .factor_sign hkind (ih canonical).expression_of_rank
  | group left _ right ih =>
    cases hcanonical with
    | group canonical => exact .factor_group left (ih canonical).expression_of_rank right

/-- The tokens of an expression are readable. -/
lemma Yields.readable {e : Expr} {ts : List Token} (h : e.Yields ts) : ∀ t ∈ ts, t.Readable := by
  induction h with
  | int kind value =>
    refine List.forall_mem_singleton.mpr ⟨fun _ => ⟨_, value⟩, fun hfloat => ?_⟩
    exact absurd (kind.symm.trans hfloat) (by simp)
  | float kind value =>
    refine List.forall_mem_singleton.mpr ⟨fun hinteger => ?_, fun _ => ⟨_, value⟩⟩
    exact absurd (kind.symm.trans hinteger) (by simp)
  | binary _ operator _ ihl ihr =>
    have hright := List.forall_mem_cons.mpr ⟨Operator.readable operator, ihr⟩
    exact List.forall_mem_append.mpr ⟨ihl, hright⟩
  | unary sign _ ih => exact List.forall_mem_cons.mpr ⟨Operator.readable sign, ih⟩
  | group left _ right ih =>
    have hright := List.forall_mem_singleton.mpr (Token.Readable.of_kind right)
    exact List.forall_mem_cons.mpr ⟨.of_kind left, List.forall_mem_append.mpr ⟨ih, hright⟩⟩

end Expr

namespace Stmt

lemma AllYield.derives {ss : List Stmt} {ts : List Token} (h : AllYield ss ts)
    (hcanonical : ∀ s ∈ ss, s.expr.Canonical) : Nonterminal.program.Derives ts := by
  induction h with
  | nil => exact .program_nil
  | comment kind _ ih => exact .program_cons (.statement_comment kind) (ih hcanonical)
  | @print e ss t u ts us keyword value semi _ ih =>
    obtain ⟨he, hss⟩ := List.forall_mem_cons.mp hcanonical
    have hvalue := (value.derives he).expression_of_rank
    have hderives := Nonterminal.Derives.program_cons
      (.statement_print keyword hvalue semi) (ih hss)
    simpa using hderives

lemma AllYield.readable {ss : List Stmt} {ts : List Token} (h : AllYield ss ts) :
    ∀ t ∈ ts, t.Readable := by
  induction h with
  | nil => simp
  | comment kind _ ih => exact List.forall_mem_cons.mpr ⟨.of_kind kind, ih⟩
  | print keyword value semi _ ih =>
    have hrest := List.forall_mem_cons.mpr ⟨.of_kind semi, ih⟩
    exact List.forall_mem_cons.mpr
      ⟨.of_kind keyword, List.forall_mem_append.mpr ⟨value.readable, hrest⟩⟩

lemma AllYield.append {ss ss' : List Stmt} {ts us : List Token} (h : AllYield ss ts)
    (h' : AllYield ss' us) : AllYield (ss ++ ss') (ts ++ us) := by
  induction h with
  | nil => exact h'
  | comment kind _ ih => exact .comment kind ih
  | print keyword value semi _ ih => simpa using AllYield.print keyword value semi ih

end Stmt

/-! ## Words are yields of canonical trees -/

namespace Expr

/-- There is a canonical expression with these tokens. -/
def IsYield (ts : List Token) : Prop := ∃ e : Expr, e.Canonical ∧ e.Yields ts

/-- An operand of rank 0 and an operator in front of a canonical expression that does not bind less
tightly than the operator. -/
lemma Canonical.exists_graft_of_rank_le {a e : Expr} {op : Operator} {t : Token}
    {ts us : List Token} (ha : a.Canonical) (hrank : a.rank = 0) (hclosed : ¬ a.OpenRight)
    (hts : a.Yields ts) (hop : t.kind = op.tokenKind) (he : e.Canonical) (hus : e.Yields us)
    (hle : e.rank ≤ op.level.rank) :
    ∃ e' : Expr, e'.Canonical ∧ e'.Yields (ts ++ t :: us) ∧ (e'.OpenRight ↔ e.OpenRight) ∧
      e'.rank ≤ max e.rank (op.level.rank + 1) := by
  have hleft : a.rank ≤ op.level.rank + 1 := by omega
  exact ⟨.binary op a e t.position, .binary ha he hleft hle hclosed, .binary hts hop hus, .rfl,
    Nat.le_max_right _ _⟩

/-- In front of any canonical expression, such an operand goes down to the first left operand that
does not bind less tightly than the operator. -/
lemma Canonical.exists_graft {a e : Expr} {op : Operator} {t : Token} {ts us : List Token}
    (ha : a.Canonical) (hrank : a.rank = 0) (hclosed : ¬ a.OpenRight) (hts : a.Yields ts)
    (hop : t.kind = op.tokenKind) (he : e.Canonical) (hus : e.Yields us) :
    ∃ e' : Expr, e'.Canonical ∧ e'.Yields (ts ++ t :: us) ∧ (e'.OpenRight ↔ e.OpenRight) ∧
      e'.rank ≤ max e.rank (op.level.rank + 1) := by
  induction hus with
  | @binary op' l r t' vs ws left operator right ihl _ =>
    -- either the whole becomes the right operand, or the graft goes into the left operand
    by_cases hle : op'.level.rank + 1 ≤ op.level.rank
    · exact ha.exists_graft_of_rank_le hrank hclosed hts hop he (.binary left operator right) hle
    · cases he with
      | binary cleft cright rank_left rank_right hopen =>
        obtain ⟨l', hl', hyields, hiff, hrank'⟩ := ihl cleft
        have hrankl : l'.rank ≤ op'.level.rank + 1 := by omega
        refine ⟨.binary op' l' r t'.position, ?_, ?_, .rfl, Nat.le_max_left _ _⟩
        · exact .binary hl' cright hrankl rank_right fun h => hopen (hiff.mp h)
        · simpa using Yields.binary hyields operator right
  | int kind value =>
    exact ha.exists_graft_of_rank_le hrank hclosed hts hop he (.int kind value) (Nat.zero_le _)
  | float kind value =>
    exact ha.exists_graft_of_rank_le hrank hclosed hts hop he (.float kind value) (Nat.zero_le _)
  | unary sign operand _ =>
    exact ha.exists_graft_of_rank_le hrank hclosed hts hop he (.unary sign operand) (Nat.zero_le _)
  | group left inner right _ =>
    exact ha.exists_graft_of_rank_le hrank hclosed hts hop he (.group left inner right)
      (Nat.zero_le _)

/-- An operand of rank 0, an operator and a canonical expression are the tokens of another one. -/
lemma Canonical.isYield_operator {a : Expr} {op : Operator} {t : Token} {ts us : List Token}
    (ha : a.Canonical) (hrank : a.rank = 0) (hclosed : ¬ a.OpenRight) (hts : a.Yields ts)
    (hop : t.kind = op.tokenKind) (hus : IsYield us) : IsYield (ts ++ t :: us) := by
  obtain ⟨e, he, hyields⟩ := hus
  obtain ⟨e', he', hyields', -, -⟩ := ha.exists_graft hrank hclosed hts hop he hyields
  exact ⟨e', he', hyields'⟩

/-- Two canonical expressions with an operator between them are the tokens of a third. -/
lemma IsYield.operator {op : Operator} {t : Token} {ts us : List Token} (hts : IsYield ts)
    (hop : t.kind = op.tokenKind) (hus : IsYield us) : IsYield (ts ++ t :: us) := by
  obtain ⟨e, he, hyields⟩ := hts
  induction hyields generalizing op t us with
  | int kind value => exact he.isYield_operator rfl id (.int kind value) hop hus
  | float kind value => exact he.isYield_operator rfl id (.float kind value) hop hus
  | group left inner right _ => exact he.isYield_operator rfl id (.group left inner right) hop hus
  | binary left operator right ihl ihr =>
    cases he with
    | binary cleft cright _ _ _ =>
      -- first the right operand takes the rest in, then the left one all of that
      have h := ihl operator (ihr hop hus cright) cleft
      simpa using h
  | unary sign operand ih =>
    -- a sign takes the operator into its operand
    cases he with
    | unary hsign canonical =>
      obtain ⟨e', he', hyields'⟩ := ih hop hus canonical
      exact ⟨_, .unary hsign he', .unary sign hyields'⟩

lemma IsYield.sign {t : Token} {ts : List Token} (hkind : t.kind = .plus ∨ t.kind = .minus)
    (hts : IsYield ts) : IsYield (t :: ts) := by
  obtain ⟨e, he, hyields⟩ := hts
  rcases hkind with hplus | hminus
  · exact ⟨.unary .plus e, .unary (.inl rfl) he, .unary hplus hyields⟩
  · exact ⟨.unary .minus e, .unary (.inr rfl) he, .unary hminus hyields⟩

end Expr

namespace Nonterminal

/-- The trees of a nonterminal: programs for the first two, and expressions for the others. -/
def HasTree : Nonterminal → List Token → Prop
  | program, ts | statement, ts => ∃ p : Program, p.Canonical ∧ p.Yields ts
  | _, ts => Expr.IsYield ts

/-- A word without unreadable numerals belongs to a canonical tree. -/
lemma Derives.hasTree {n : Nonterminal} {ts : List Token} (h : n.Derives ts)
    (hreadable : ∀ t ∈ ts, t.Readable) : n.HasTree ts := by
  induction h with
  | program_nil => exact ⟨⟨[]⟩, List.forall_mem_nil _, .nil⟩
  | program_cons _ _ ihfirst ihothers =>
    obtain ⟨hfirst, hothers⟩ := List.forall_mem_append.mp hreadable
    obtain ⟨p, hp, hyields⟩ := ihfirst hfirst
    obtain ⟨q, hq, hyields'⟩ := ihothers hothers
    exact ⟨⟨p.statements ++ q.statements⟩, List.forall_mem_append.mpr ⟨hp, hq⟩,
      hyields.append hyields'⟩
  | statement_print keyword _ semi ih =>
    have hvalue := (List.forall_mem_append.mp (List.forall_mem_cons.mp hreadable).2).1
    obtain ⟨e, he, hyields⟩ := ih hvalue
    exact ⟨⟨[.print e]⟩, List.forall_mem_singleton.mpr he, .print keyword hyields semi .nil⟩
  | statement_comment comment => exact ⟨⟨[]⟩, List.forall_mem_nil _, .comment comment .nil⟩
  | expression _ ih | sum_one _ ih | product_one _ ih => exact ih hreadable
  | sum_more _ operator _ ihl ihr =>
    obtain ⟨hleft, hright⟩ := List.forall_mem_append.mp hreadable
    have hr := ihr (List.forall_mem_cons.mp hright).2
    rcases operator with hplus | hminus
    · exact (ihl hleft).operator (show _ = Operator.plus.tokenKind from hplus) hr
    · exact (ihl hleft).operator (show _ = Operator.minus.tokenKind from hminus) hr
  | product_more _ operator _ ihl ihr =>
    obtain ⟨hleft, hright⟩ := List.forall_mem_append.mp hreadable
    have hr := ihr (List.forall_mem_cons.mp hright).2
    rcases operator with htimes | hdivide
    · exact (ihl hleft).operator (show _ = Operator.times.tokenKind from htimes) hr
    · exact (ihl hleft).operator (show _ = Operator.divide.tokenKind from hdivide) hr
  | factor_integer kind =>
    obtain ⟨n, hn⟩ := (List.forall_mem_singleton.mp hreadable).integer kind
    exact ⟨_, .int n _, .int kind hn⟩
  | factor_float kind =>
    obtain ⟨x, hx⟩ := (List.forall_mem_singleton.mp hreadable).float kind
    exact ⟨_, .float x _, .float kind hx⟩
  | factor_sign sign _ ih => exact (ih (List.forall_mem_cons.mp hreadable).2).sign sign
  | factor_group left _ right ih =>
    have hinner := (List.forall_mem_append.mp (List.forall_mem_cons.mp hreadable).2).1
    obtain ⟨e, he, hyields⟩ := ih hinner
    exact ⟨.group e, .group he, .group left hyields right⟩

end Nonterminal

/-- **The parser accepts the words of the grammar.**  A token list is parsed exactly if its tokens
before the end marker are derived from the rules and all numerals among them are readable. -/
theorem Program.exists_ofTokens_eq_ok_iff (ts : List Token) :
    (∃ p, ofTokens ts = .ok p) ↔
      Nonterminal.program.Derives (ts.takeWhile (·.kind ≠ .eof)) ∧
        ∀ t ∈ ts.takeWhile (·.kind ≠ .eof), t.Readable := by
  constructor
  · rintro ⟨p, h⟩
    obtain ⟨ss, -, hcanonical, hyields⟩ := Parser.allYield_of_statements h
    exact ⟨hyields.derives hcanonical, hyields.readable⟩
  · rintro ⟨hderives, hreadable⟩
    obtain ⟨p, hcanonical, hyields⟩ := hderives.hasTree hreadable
    exact ⟨p, Parser.statements_of_allYield hyields hcanonical []⟩

end Reckon
