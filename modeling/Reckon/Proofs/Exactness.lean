/-
# The parser finds the canonical tree

An operand of a level is an expression up to the rank of the level that no operator of a lower rank
follows; all the operators of a level together are one that no operator of the level follows
either.  Both are found exactly if they are there: this is `Parser.readsOperands`, by induction on
the number of tokens, and `Parser.expr_eq_ok_iff`.  The loop that collects the operators of a level
goes through two lemmas, one for each direction.  What it has found so far is canonical, with an
operator of the level allowed to follow it; and what it finds behind a canonical expression, it
finds from the leftmost operand of that expression on.

The main result is `Program.ofTokens_eq_ok_iff`.
-/
import Reckon.Proofs.Canonical

namespace Reckon

open Reckon.Expr (IsRead)

namespace Parser

variable {stop : Position}

/-! ## The operators of a level -/

/-- The operands of a level that begin within less than `n` tokens are read exactly. -/
def ReadsOperands (level : Level) (stop : Position) (n : ℕ) : Prop :=
  ∀ us : List Token, us.length < n → ∀ (e : Expr) (rest : List Token),
    (operand level stop us).reading = .ok (e, rest) ↔ IsRead level.rank level.rank us e rest

/-- What the loop of a level finds is canonical, if it starts behind a canonical expression. -/
lemma isRead_of_readMore {level : Level} {ts after rest : List Token} {left e : Expr}
    (hoperands : ReadsOperands level stop after.length)
    (hleft : IsRead (level.rank + 1) level.rank ts left after)
    (h : readMore level stop left after = .ok (e, rest)) :
    IsRead (level.rank + 1) (level.rank + 1) ts e rest := by
  induction left, after using readMore_induction level stop with
  | nil left =>
    obtain ⟨rfl, rfl⟩ := Prod.mk.inj (Except.ok.inj ((readMore_nil level left).symm.trans h))
    exact { hleft with halts := .nil _ }
  | done left t us hop =>
    obtain ⟨rfl, rfl⟩ := Prod.mk.inj (Except.ok.inj ((readMore_of_none hop).symm.trans h))
    exact { hleft with halts := hleft.halts.succ_of_none hop }
  | operator left t us op hop ih =>
    obtain ⟨rfl, hkind⟩ := Level.operator?_eq_some_iff.mp hop
    obtain ⟨right, after, hright, hmore⟩ := (readMore_eq_ok_iff hop).mp h
    have hus : us.length < (t :: us).length := Nat.lt_succ_self _
    have hafter : after.length < (t :: us).length := Nat.lt_trans (Parsed.length_lt hright) hus
    have hread := (hoperands us hus right after).mp hright
    have hbinary := IsRead.binary_iff.mpr ⟨t, us, rfl, hkind, hleft, hread⟩
    exact ih right after hright (fun vs hvs => hoperands vs (Nat.lt_trans hvs hafter)) hbinary hmore

/-- What the loop of a level finds behind a canonical expression, it finds behind the leftmost
operand of that expression too. -/
lemma exists_operand_of_isRead {level : Level} {ts after rest : List Token} {left e : Expr}
    (hoperands : ReadsOperands level stop ts.length)
    (hleft : IsRead (level.rank + 1) level.rank ts left after)
    (h : readMore level stop left after = .ok (e, rest)) :
    ∃ first behind, IsRead level.rank level.rank ts first behind ∧
      readMore level stop first behind = .ok (e, rest) := by
  by_cases hrank : left.rank ≤ level.rank
  · exact ⟨left, after, { hleft with rank_le := hrank }, h⟩
  · -- the root is an operator of the level, and its left operand is closer to the first one
    induction left generalizing after with
    | binary op l r p ihl _ =>
      have hlevel : op.level = level := by
        have hle : op.level.rank + 1 ≤ level.rank + 1 := hleft.rank_le
        have hgt : ¬ op.level.rank + 1 ≤ level.rank := hrank
        exact Level.rank_inj (by omega)
      subst hlevel
      obtain ⟨t, us, rfl, hkind, hl, hr⟩ := IsRead.binary_iff.mp hleft
      have hop : op.level.operator? t.kind = some op := Level.operator?_eq_some_iff.mpr ⟨rfl, hkind⟩
      have hoperand := (hoperands us hl.length_le r after).mpr hr
      have hmore := (readMore_eq_ok_iff hop).mpr ⟨r, after, hoperand, h⟩
      by_cases hrankl : l.rank ≤ op.level.rank
      · exact ⟨l, t :: us, { hl with rank_le := hrankl }, hmore⟩
      · exact ihl hl hmore hrankl
    | int n p => exact absurd (Nat.zero_le _) hrank
    | float x p => exact absurd (Nat.zero_le _) hrank
    | unary op e ih => exact absurd (Nat.zero_le _) hrank
    | group e ih => exact absurd (Nat.zero_le _) hrank

/-- If the operands of a level are read exactly, so are the operators between them. -/
lemma chain_eq_ok_iff_isRead {level : Level} {ts rest : List Token} {e : Expr}
    (hoperands : ReadsOperands level stop (ts.length + 1)) :
    (chain level stop ts).reading = .ok (e, rest) ↔
      IsRead (level.rank + 1) (level.rank + 1) ts e rest := by
  have hshorter {n : ℕ} (hn : n ≤ ts.length) : ReadsOperands level stop n :=
    fun us hus => hoperands us (by omega)
  rw [chain_eq_ok_iff]
  constructor
  · rintro ⟨left, after, hleft, hmore⟩
    have hlt : after.length < ts.length := Parsed.length_lt hleft
    have hread := (hoperands ts (Nat.lt_succ_self _) left after).mp hleft
    have hloose := { hread with rank_le := Nat.le_succ_of_le hread.rank_le }
    exact isRead_of_readMore (hshorter (Nat.le_of_lt hlt)) hloose hmore
  · intro h
    have hloose := { h with halts := h.halts.mono (Nat.le_succ level.rank) }
    obtain ⟨left, after, hread, hmore⟩ :=
      exists_operand_of_isRead (hshorter (Nat.le_refl _)) hloose h.halts.readMore_eq
    exact ⟨left, after, (hoperands ts (Nat.lt_succ_self _) left after).mpr hread, hmore⟩

/-! ## Expressions -/

/-- If expressions are read exactly where fewer tokens are left, so are factors. -/
lemma factor_eq_ok_iff_isRead {ts rest : List Token} {e : Expr}
    (hexprs : ∀ us : List Token, us.length < ts.length → ∀ (e : Expr) (rest : List Token),
      (chain .sum stop us).reading = .ok (e, rest) ↔ IsRead 2 2 us e rest) :
    (factor stop ts).reading = .ok (e, rest) ↔ IsRead 0 0 ts e rest := by
  rw [factor_eq_ok_iff]
  constructor
  · intro h
    cases h with
    | int kind value => exact .int kind value (.zero _)
    | float kind value => exact .float kind value (.zero _)
    | @sign op t ts rest e kind operand =>
      have he := (hexprs ts (Nat.lt_succ_self _) e rest).mp operand
      exact IsRead.unary_iff.mpr ⟨t, ts, rfl, kind, he⟩
    | @group t u ts rest e left inner right =>
      have he := (hexprs ts (Nat.lt_succ_self _) e (u :: rest)).mp inner
      exact IsRead.group_iff.mpr ⟨t, u, ts, rfl, left, right, he⟩
  · intro h
    cases e with
    | int n p =>
      obtain ⟨⟨used, rfl, hyields⟩, -, -, -, -⟩ := h
      cases hyields with
      | int kind value => exact .int kind value
    | float x p =>
      obtain ⟨⟨used, rfl, hyields⟩, -, -, -, -⟩ := h
      cases hyields with
      | float kind value => exact .float kind value
    | binary op l r p => exact absurd h.rank_le (Nat.not_succ_le_zero _)
    | unary op e =>
      obtain ⟨t, us, rfl, hkind, he⟩ := IsRead.unary_iff.mp h
      exact .sign hkind ((hexprs us (Nat.lt_succ_self _) e rest).mpr he)
    | group e =>
      obtain ⟨t, u, us, rfl, hleft, hright, he⟩ := IsRead.group_iff.mp h
      exact .group hleft ((hexprs us (Nat.lt_succ_self _) e (u :: rest)).mpr he) hright

/-- Operands are read exactly. -/
theorem readsOperands (level : Level) (stop : Position) (n : ℕ) : ReadsOperands level stop n := by
  induction n generalizing level with
  | zero => exact fun us hus => absurd hus (Nat.not_lt_zero _)
  | succ n ih =>
    have hproduct : ReadsOperands .product stop (n + 1) := by
      intro us hus e rest
      rw [operand_product_reading]
      apply factor_eq_ok_iff_isRead
      intro vs hvs e rest
      exact chain_eq_ok_iff_isRead fun ws hws => ih .sum ws (by omega)
    cases level with
    | product => exact hproduct
    | sum =>
      intro us hus e rest
      rw [operand_sum_reading]
      exact chain_eq_ok_iff_isRead fun vs hvs => hproduct vs (by omega)

/-- The parser reads an expression exactly if a canonical one is there, and it stops where no
operator follows. -/
theorem expr_eq_ok_iff {ts rest : List Token} {e : Expr} :
    (expr stop ts).reading = .ok (e, rest) ↔ IsRead 2 2 ts e rest :=
  chain_eq_ok_iff_isRead (readsOperands .sum stop _)

end Parser

/-! ## Programs -/

/-- The tokens of statements, with comments before, between and behind them. -/
inductive Stmt.AllYield : List Stmt → List Token → Prop where
  | nil : AllYield [] []
  | comment {ss : List Stmt} {t : Token} {ts : List Token} (kind : t.kind = .comment)
      (rest : AllYield ss ts) : AllYield ss (t :: ts)
  | print {e : Expr} {ss : List Stmt} {t u : Token} {ts us : List Token} (keyword : t.kind = .print)
      (value : e.Yields ts) (semi : u.kind = .semi) (rest : AllYield ss us) :
      AllYield (.print e :: ss) (t :: (ts ++ u :: us))

/-- The tokens of a program. -/
def Program.Yields (p : Program) (ts : List Token) : Prop := Stmt.AllYield p.statements ts

/-- All expressions of a program are canonical. -/
def Program.Canonical (p : Program) : Prop := ∀ s ∈ p.statements, s.expr.Canonical

namespace Parser

variable {stop : Position}

/-- The parser reads a statement exactly if it is there with a canonical expression. -/
lemma statement_eq_ok_iff_yields {ts rest : List Token} {s : Stmt} :
    (statement stop ts).reading = .ok (s, rest) ↔
      ∃ t us e u, ts = t :: (us ++ u :: rest) ∧ t.kind = .print ∧ e.Canonical ∧ e.Yields us ∧
        u.kind = .semi ∧ s = .print e := by
  rw [statement_eq_ok_iff]
  constructor
  · rintro ⟨t, us, e, u, rfl, ht, he, hu, rfl⟩
    have hread := expr_eq_ok_iff.mp he
    obtain ⟨used, rfl, hyields⟩ := hread.yields
    exact ⟨t, used, e, u, rfl, ht, hread.canonical, hyields, hu, rfl⟩
  · rintro ⟨t, us, e, u, rfl, ht, hcanonical, hyields, hu, rfl⟩
    have hread : IsRead 2 2 (us ++ u :: rest) e (u :: rest) :=
      .whole hyields hcanonical (.of_close (.inr hu))
    exact ⟨t, us ++ u :: rest, e, u, rfl, ht, expr_eq_ok_iff.mpr hread, hu, rfl⟩

/-- Statements that are there with canonical expressions are read, and reading goes on behind
them. -/
lemma statements_append {ss : List Stmt} {ts : List Token} (h : Stmt.AllYield ss ts)
    (hcanonical : ∀ s ∈ ss, s.expr.Canonical) (found : List Stmt) (us : List Token) :
    statements stop found (ts ++ us) = statements stop (ss.reverse ++ found) us := by
  induction h generalizing found with
  | nil => rfl
  | comment kind _ ih =>
    rw [List.cons_append, statements_comment found _ kind]
    exact ih hcanonical found
  | @print e ss t u vs ts keyword value semi _ ih =>
    obtain ⟨he, hss⟩ := List.forall_mem_cons.mp hcanonical
    have hne : t.kind ≠ .comment := by simp [keyword]
    have hread : (statement stop (t :: (vs ++ u :: ts ++ us))).reading = .ok (.print e, ts ++ us) :=
      statement_eq_ok_iff_yields.mpr ⟨t, vs, e, u, by simp, keyword, he, value, semi, rfl⟩
    rw [List.cons_append, statements_of_ok hne hread, ih hss]
    simp

/-- Statements that are there with canonical expressions are read. -/
lemma statements_of_allYield {ss : List Stmt} {ts : List Token} (h : Stmt.AllYield ss ts)
    (hcanonical : ∀ s ∈ ss, s.expr.Canonical) (found : List Stmt) :
    (statements stop found ts).1 = .ok ⟨found.reverse ++ ss⟩ := by
  have happend : statements stop found (ts ++ []) = statements stop (ss.reverse ++ found) [] :=
    statements_append h hcanonical found []
  rw [List.append_nil] at happend
  simp [happend]

/-- Statements that are read are there, behind those that had been found, and their expressions
are canonical. -/
lemma allYield_of_statements {found : List Stmt} {ts : List Token} {p : Program}
    (h : (statements stop found ts).1 = .ok p) :
    ∃ ss, p.statements = found.reverse ++ ss ∧ (∀ s ∈ ss, s.expr.Canonical) ∧
      Stmt.AllYield ss ts := by
  induction found, ts using statements_induction stop with
  | nil found =>
    obtain rfl : (⟨found.reverse⟩ : Program) = p := by simpa using h
    exact ⟨[], by simp, by simp, .nil⟩
  | comment found t ts hcomment ih =>
    rw [statements_comment found ts hcomment] at h
    obtain ⟨ss, hss, hcanonical, hyield⟩ := ih h
    exact ⟨ss, hss, hcanonical, .comment hcomment hyield⟩
  | failed found t ts err rest hcomment hread =>
    exact absurd h (by simp [statements_of_error hcomment hread])
  | read found t ts s rest hcomment hread ih =>
    rw [statements_of_ok hcomment hread] at h
    obtain ⟨ss, hss, hcanonical, hyield⟩ := ih h
    obtain ⟨t', us, e, u, heq, ht, he, hyields, hu, rfl⟩ := statement_eq_ok_iff_yields.mp hread
    refine ⟨.print e :: ss, by simp [hss], List.forall_mem_cons.mpr ⟨he, hcanonical⟩, ?_⟩
    rw [heq]
    exact .print ht hyields hu hyield

end Parser

/-- A source text of one statement without comments. -/
lemma Program.ofSource_of_yields {source : String} {ts : List Token} {t u : Token} {e : Expr}
    {stop : Position} (h : tokenize source = t :: (ts ++ [u, .endAt stop]))
    (keyword : t.kind = .print) (semi : u.kind = .semi) (value : e.Yields ts)
    (hcanonical : e.Canonical) (heof : ∀ x ∈ ts, x.kind ≠ .eof) :
    ofSource source = .ok ⟨[.print e]⟩ := by
  have hahead : (tokenize source).takeWhile (·.kind ≠ .eof) = t :: (ts ++ u :: []) := by
    have hts : ∀ x ∈ ts, decide (x.kind ≠ .eof) = true := fun x hx => decide_eq_true (heof x hx)
    rw [h, List.takeWhile_cons_of_pos (by simp [keyword]), List.takeWhile_append_of_pos hts]
    simp [semi, Token.endAt]
  have hyields : Stmt.AllYield [.print e] (t :: (ts ++ u :: [])) :=
    .print keyword value semi .nil
  have hread : (Parser.statements (Parser.ofSource source).stop [] (t :: (ts ++ u :: []))).1 =
      .ok ⟨[.print e]⟩ :=
    Parser.statements_of_allYield hyields (List.forall_mem_singleton.mpr hcanonical) []
  rw [← hahead] at hread
  exact hread

/-- **The parser finds the canonical tree.**  A token list is parsed as a program exactly if the
program is canonical and the tokens before the end marker are its yield. -/
theorem Program.ofTokens_eq_ok_iff (ts : List Token) (p : Program) :
    ofTokens ts = .ok p ↔ p.Canonical ∧ p.Yields (ts.takeWhile (·.kind ≠ .eof)) := by
  constructor
  · intro h
    obtain ⟨ss, hss, hcanonical, hyields⟩ := Parser.allYield_of_statements h
    obtain rfl : p.statements = ss := hss
    exact ⟨hcanonical, hyields⟩
  · rintro ⟨hcanonical, hyields⟩
    exact Parser.statements_of_allYield hyields hcanonical []

-- The sign takes the sum behind it, and a product is made of the whole.
example : Program.ofSource "print 2 * -3 + 4;" = .ok ⟨[.print
    (.binary .times (.int 2 ⟨1, 7⟩)
      (.unary .minus (.binary .plus (.int 3 ⟨1, 12⟩) (.int 4 ⟨1, 16⟩) ⟨1, 14⟩)) ⟨1, 9⟩)]⟩ := by
  cbv

end Reckon
