/-
# Where the parser is blocked

Tokens are viable if they can be continued to those of a program.  Since operators between words of
expressions give words of expressions (`Expr.IsYield.operator`), what has been read of an expression
can be left open in any place and still be continued, and this needs no levels.

`Parser.Blocked` says for one function of the parser that it fails at a certain token: what it
tells, that the tokens before are viable, and that it fails on all tokens that are the same up to
this one.  The latter holds since of what follows a word the parser looks at the first token only
(`Expr.IsRead.exists_used`).  Each function is blocked where it fails if those that it calls are,
and so the whole parser is, `Parser.exists_blocked_statements`.
-/
import Reckon.Proofs.Grammar
import Reckon.Proofs.Sequence

namespace Reckon

/-! ## Viable tokens -/

/-- The tokens can be continued to those of an expression. -/
def Expr.Viable (ts : List Token) : Prop := ∃ us, IsYield (ts ++ us)

/-- The tokens can be continued to those of a program. -/
def Program.Viable (ts : List Token) : Prop :=
  ∃ us, ∃ p : Program, p.Canonical ∧ p.Yields (ts ++ us)

namespace Expr

lemma IsYield.viable {ts : List Token} (h : IsYield ts) : Viable ts :=
  ⟨[], by rwa [List.append_nil]⟩

lemma IsYield.group {t u : Token} {ts : List Token} (left : t.kind = .lparen) (hts : IsYield ts)
    (right : u.kind = .rparen) : IsYield (t :: (ts ++ [u])) := by
  obtain ⟨e, he, hyields⟩ := hts
  exact ⟨.group e, .group he, .group left hyields right⟩

lemma exists_isYield : ∃ ts, IsYield ts := by
  have hzero : Numeral.int32? "0".toList = some 0 := by decide
  exact ⟨[⟨.integer, "0", .start⟩], .int 0 .start, .int _ _, .int (t := ⟨_, _, _⟩) rfl hzero⟩

lemma viable_nil : Viable [] :=
  exists_isYield

lemma Viable.sign {op : Operator} {t : Token} {ts : List Token}
    (hkind : Level.sum.operator? t.kind = some op) (h : Viable ts) : Viable (t :: ts) := by
  obtain ⟨us, hus⟩ := h
  obtain ⟨hlevel, hop⟩ := Level.operator?_eq_some_iff.mp hkind
  refine ⟨us, hus.sign ?_⟩
  cases op with
  | plus => exact .inl hop
  | minus => exact .inr hop
  | times | divide => exact absurd hlevel (by decide)

lemma Viable.group {t : Token} {ts : List Token} (hkind : t.kind = .lparen) (h : Viable ts) :
    Viable (t :: ts) := by
  obtain ⟨us, hus⟩ := h
  refine ⟨us ++ [⟨.rparen, ")", .start⟩], ?_⟩
  simpa using hus.group hkind (u := ⟨.rparen, ")", .start⟩) rfl

/-- An operator behind the tokens of an expression. -/
lemma IsYield.viable_operator {op : Operator} {t : Token} {ts us : List Token} (hts : IsYield ts)
    (hkind : t.kind = op.tokenKind) (h : Viable us) : Viable (ts ++ t :: us) := by
  obtain ⟨vs, hvs⟩ := h
  refine ⟨vs, ?_⟩
  simpa using hts.operator hkind hvs

end Expr

namespace Program

lemma viable_nil : Viable [] := ⟨[], ⟨[]⟩, List.forall_mem_nil _, .nil⟩

/-- Statements in front. -/
lemma Viable.append {ss : List Stmt} {ts us : List Token} (hss : Stmt.AllYield ss ts)
    (hcanonical : ∀ s ∈ ss, s.expr.Canonical) (h : Viable us) : Viable (ts ++ us) := by
  obtain ⟨vs, p, hp, hyields⟩ := h
  refine ⟨vs, ⟨ss ++ p.statements⟩, List.forall_mem_append.mpr ⟨hcanonical, hp⟩, ?_⟩
  rw [List.append_assoc]
  exact hss.append hyields

/-- A statement that has begun. -/
lemma viable_print {t : Token} {ts : List Token} (keyword : t.kind = .print)
    (h : Expr.Viable ts) : Viable (t :: ts) := by
  obtain ⟨us, e, he, hyields⟩ := h
  have hstatement : Stmt.AllYield [.print e] (t :: (ts ++ us ++ ⟨.semi, ";", .start⟩ :: [])) :=
    .print keyword hyields rfl .nil
  refine ⟨us ++ [⟨.semi, ";", .start⟩], ⟨[.print e]⟩, List.forall_mem_singleton.mpr he, ?_⟩
  simpa [Yields] using hstatement

end Program

/-! ## What an error tells -/

/-- Whether the cause of an error is that there is no expression, or a numeral without a number. -/
def ParseError.Cause.AsksForExpression : Cause → Prop
  | unexpectedEnd .expression | noExpression _ | invalidInteger _ | invalidFloat _ => True
  | unexpectedToken .. | unexpectedEnd (.token _) => False

/-- What is told of a token or, if there is none, of the end of the input. -/
inductive ParseError.Tells (stop : Position) : Option Token → ParseError → Prop where
  | atEnd (wanted : Expectation) : Tells stop none ⟨.unexpectedEnd wanted, stop⟩
  | unexpected {t : Token} {kind : TokenKind} (ne : t.kind ≠ kind) :
      Tells stop (some t) ⟨.unexpectedToken kind t.kind, t.position⟩
  | noExpression (t : Token) : Tells stop (some t) ⟨.noExpression t.kind, t.position⟩
  | integer {t : Token} (kind : t.kind = .integer)
      (unreadable : Numeral.int32? t.lexeme.toList = none) :
      Tells stop (some t) ⟨.invalidInteger t.lexeme, t.position⟩
  | float {t : Token} (kind : t.kind = .float)
      (unreadable : Numeral.float32? t.lexeme.toList = none) :
      Tells stop (some t) ⟨.invalidFloat t.lexeme, t.position⟩

/-- An error is at its token, or at the end of the input. -/
lemma ParseError.Tells.position {stop : Position} {t : Option Token} {err : ParseError}
    (h : err.Tells stop t) : err.position = (t.map Token.position).getD stop := by
  cases h <;> rfl

/-! ## What follows a word -/

namespace Expr.IsRead

variable {m k : ℕ} {ts rest : List Token} {e : Expr}

/-- What has been read is the word of an expression, and it is read in front of any tokens of which
the first is the same. -/
lemma exists_used (h : IsRead m k ts e rest) : ∃ used, ts = used ++ rest ∧ IsYield used ∧
    ∀ us : List Token, us.head? = rest.head? → IsRead m k (used ++ us) e us := by
  obtain ⟨used, rfl, hyields⟩ := h.yields
  refine ⟨used, rfl, ⟨e, h.canonical, hyields⟩, fun us hhead => ?_⟩
  have hhalts (i : ℕ) (hi : Halts i rest) : Halts i us := by
    unfold Halts
    rw [hhead]
    exact hi
  exact ⟨⟨used, rfl, hyields⟩, h.canonical, h.rank_le, hhalts k h.halts,
    fun hopen => hhalts 2 (h.closed hopen)⟩

end Expr.IsRead

/-! ## Functions that fail at a token -/

/-- Tokens that agree with others behind some that are there in any case. -/
lemma exists_append_of_take_eq {α : Type} {xs ys zs : List α} {n : ℕ}
    (h : zs.take (xs.length + n) = (xs ++ ys).take (xs.length + n)) :
    ∃ ws, zs = xs ++ ws ∧ ws.take n = ys.take n := by
  rw [List.take_length_add_append, List.take_add] at h
  have hxs : zs.take xs.length = xs := by
    have htake := congrArg (List.take xs.length) h
    rw [List.take_left, ← List.take_add, List.take_take] at htake
    rwa [Nat.min_eq_left (Nat.le_add_right _ _)] at htake
  rw [hxs] at h
  refine ⟨zs.drop xs.length, ?_, List.append_cancel_left h⟩
  conv_lhs => rw [← List.take_append_drop xs.length zs, hxs]

lemma head?_eq_of_take_eq {α : Type} {xs ys : List α} {n : ℕ}
    (h : xs.take (n + 1) = ys.take (n + 1)) : xs.head? = ys.head? := by
  have hhead := congrArg List.head? h
  simpa [List.head?_take] using hhead

namespace Parser

/-- Something that reads tokens fails on `ts` with the error `err`, at the token number `n`, or at
the end if there are `n` tokens only.  `Fails` says which tokens it fails on, with the place of the
end as a parameter, and `Begins` which ones can be continued to something that it reads. -/
structure Blocked (Fails : Position → List Token → Prop) (Begins : List Token → Prop)
    (stop : Position) (ts : List Token) (err : ParseError) (n : ℕ) : Prop where
  le : n ≤ ts.length
  tells : err.Tells stop ts[n]?
  begins : Begins (ts.take n)
  /-- If an expression is asked for, any could stand here. -/
  expression : err.cause.AsksForExpression → ∀ us, Expr.IsYield us → Begins (ts.take n ++ us)
  /-- What follows the token does not help. -/
  fails : ∀ (stop : Position) (us : List Token), us.take (n + 1) = ts.take (n + 1) → Fails stop us

namespace Blocked

variable {Fails Fails' : Position → List Token → Prop} {Begins Begins' : List Token → Prop}
  {stop : Position} {ts : List Token} {err : ParseError} {n : ℕ}

/-- A failure at the first token. -/
lemma first (tells : err.Tells stop ts.head?) (begins : Begins [])
    (expression : err.cause.AsksForExpression → ∀ us, Expr.IsYield us → Begins us)
    (fails : ∀ (stop : Position) (us : List Token), us.head? = ts.head? → Fails stop us) :
    Blocked Fails Begins stop ts err 0 where
  le := Nat.zero_le _
  tells := by rwa [← List.head?_eq_getElem?]
  begins := begins
  expression := expression
  fails stop us hus := fails stop us (head?_eq_of_take_eq hus)

/-- A failure behind some tokens. -/
lemma shift (pre : List Token) (h : Blocked Fails Begins stop ts err n)
    (begins : ∀ us, Begins us → Begins' (pre ++ us))
    (fails : ∀ (stop : Position) (us : List Token), us.head? = ts.head? → Fails stop us →
      Fails' stop (pre ++ us)) :
    Blocked Fails' Begins' stop (pre ++ ts) err (pre.length + n) where
  le := by
    rw [List.length_append]
    exact Nat.add_le_add_left h.le _
  tells := by
    rw [List.getElem?_append_right (Nat.le_add_right _ _), Nat.add_sub_cancel_left]
    exact h.tells
  begins := by
    rw [List.take_length_add_append]
    exact begins _ h.begins
  expression hcause us hus := by
    rw [List.take_length_add_append, List.append_assoc]
    exact begins _ (h.expression hcause us hus)
  fails stop us hus := by
    rw [Nat.add_assoc] at hus
    obtain ⟨vs, rfl, hvs⟩ := exists_append_of_take_eq hus
    exact fails stop vs (head?_eq_of_take_eq hvs) (h.fails stop vs hvs)

/-- A failure of something that is done first. -/
lemma imp (h : Blocked Fails Begins stop ts err n) (begins : ∀ us, Begins us → Begins' us)
    (fails : ∀ (stop : Position) (us : List Token), us.head? = ts.head? → Fails stop us →
      Fails' stop us) : Blocked Fails' Begins' stop ts err n where
  le := h.le
  tells := h.tells
  begins := begins _ h.begins
  expression hcause us hus := begins _ (h.expression hcause us hus)
  fails stop us hus := fails stop us (head?_eq_of_take_eq hus) (h.fails stop us hus)

end Blocked

variable {stop : Position} {ts rest : List Token} {err : ParseError}

/-- A token of a kind is not there. -/
lemma blocked_expect {kind : TokenKind} (h : (expect kind stop ts).reading = .error (err, rest)) :
    Blocked (fun stop us => ∃ y, (expect kind stop us).reading = .error y) (· = []) stop ts err
      0 := by
  cases ts with
  | nil =>
    obtain ⟨rfl, rfl⟩ := Prod.mk.inj (Except.error.inj h)
    refine .first (.atEnd _) rfl False.elim fun stop us hhead => ?_
    obtain rfl := List.head?_eq_none_iff.mp hhead
    exact ⟨_, rfl⟩
  | cons t ts =>
    have hne : t.kind ≠ kind := by
      intro hkind
      rw [expect_cons stop ts hkind] at h
      exact absurd h (by simp)
    rw [expect_of_ne stop ts hne] at h
    obtain ⟨rfl, rfl⟩ := Prod.mk.inj (Except.error.inj h)
    refine .first (.unexpected hne) rfl False.elim fun stop us hhead => ?_
    obtain ⟨us, rfl⟩ := List.head?_eq_some_iff.mp hhead
    exact ⟨_, expect_of_ne stop us hne⟩

/-! ## Expressions -/

/-- The operands of a level fail on these tokens. -/
def OperandFails (level : Level) (stop : Position) (ts : List Token) : Prop :=
  ∃ y, (operand level stop ts).reading = .error y

/-- The operators of a level fail on these tokens. -/
def ChainFails (level : Level) (stop : Position) (ts : List Token) : Prop :=
  ∃ y, (chain level stop ts).reading = .error y

lemma exists_used_of_operand {level : Level} {e : Expr}
    (h : (operand level stop ts).reading = .ok (e, rest)) : ∃ used, ts = used ++ rest ∧
      Expr.IsYield used ∧ ∀ (stop : Position) (us : List Token), us.head? = rest.head? →
        (operand level stop (used ++ us)).reading = .ok (e, us) := by
  have hread := (readsOperands level stop _ ts (Nat.lt_succ_self _) e rest).mp h
  obtain ⟨used, rfl, hyield, hused⟩ := hread.exists_used
  refine ⟨used, rfl, hyield, fun stop us hhead => ?_⟩
  exact (readsOperands level stop _ _ (Nat.lt_succ_self _) e us).mpr (hused us hhead)

lemma exists_used_of_expr {e : Expr} (h : (expr stop ts).reading = .ok (e, rest)) :
    ∃ used, ts = used ++ rest ∧ Expr.IsYield used ∧
      ∀ (stop : Position) (us : List Token), us.head? = rest.head? →
        (expr stop (used ++ us)).reading = .ok (e, us) := by
  obtain ⟨used, rfl, hyield, hused⟩ := (expr_eq_ok_iff.mp h).exists_used
  exact ⟨used, rfl, hyield, fun stop us hhead => expr_eq_ok_iff.mpr (hused us hhead)⟩

/-- A factor that fails at its first token, or at the end. -/
lemma blocked_factor_first (tells : err.Tells stop ts.head?)
    (fails : ∀ (stop : Position) (us : List Token), us.head? = ts.head? →
      ∃ y, (factor stop us).reading = .error y) :
    Blocked (OperandFails .product) Expr.Viable stop ts err 0 := by
  refine .first tells Expr.viable_nil (fun _ us hus => hus.viable) fun stop us hhead => ?_
  obtain ⟨y, hy⟩ := fails stop us hhead
  exact ⟨y, (operand_product_reading us).trans hy⟩

lemma blocked_factor_token {t : Token} (tells : err.Tells stop (some t))
    (fails : ∀ (stop : Position) (us : List Token),
      ∃ y, (factor stop (t :: us)).reading = .error y) :
    Blocked (OperandFails .product) Expr.Viable stop (t :: ts) err 0 := by
  refine blocked_factor_first tells fun stop us hhead => ?_
  obtain ⟨us, rfl⟩ := List.head?_eq_some_iff.mp hhead
  exact fails stop us

/-- What fails behind the first token of a factor. -/
lemma Blocked.factor {t : Token} {Fails : Position → List Token → Prop} {n : ℕ}
    (h : Blocked Fails Expr.Viable stop ts err n)
    (viable : ∀ us, Expr.Viable us → Expr.Viable (t :: us))
    (fails : ∀ (stop : Position) (us : List Token), Fails stop us →
      ∃ y, (Parser.factor stop (t :: us)).reading = .error y) :
    Blocked (OperandFails .product) Expr.Viable stop (t :: ts) err (1 + n) := by
  refine h.shift [t] viable fun stop us _ hus => ?_
  obtain ⟨y, hy⟩ := fails stop us hus
  exact ⟨y, (operand_product_reading (t :: us)).trans hy⟩

/-- What follows the opening parenthesis of a group. -/
def groupRest (stop : Position) (ts : List Token) : Reading Expr :=
  (chain .sum stop ts).reading.andThen fun e after =>
    (expect .rparen stop after).reading.andThen fun _ rest => .ok (.group e, rest)

/-- A group fails in its expression, or it is not closed. -/
lemma exists_blocked_groupRest
    (hexpr : ∀ (err : ParseError) (rest : List Token),
      (chain .sum stop ts).reading = .error (err, rest) →
      ∃ n, Blocked (ChainFails .sum) Expr.Viable stop ts err n)
    (h : groupRest stop ts = .error (err, rest)) :
    ∃ n, Blocked (fun stop us => ∃ y, groupRest stop us = .error y) Expr.Viable stop ts err n := by
  rw [groupRest, Reading.andThen_eq_error_iff] at h
  rcases h with h | ⟨e, after, hinner, h⟩
  · obtain ⟨n, hn⟩ := hexpr err rest h
    refine ⟨n, hn.imp (fun _ => id) ?_⟩
    rintro stop us - ⟨y, hy⟩
    exact ⟨y, by rw [groupRest, hy, Reading.andThen_error]⟩
  · rw [Reading.andThen_eq_error_iff] at h
    rcases h with h | ⟨u, after', -, h⟩
    · obtain ⟨used, rfl, hyield, hused⟩ := exists_used_of_expr hinner
      refine ⟨_, (blocked_expect h).shift used ?_ ?_⟩
      · rintro us rfl
        rw [List.append_nil]
        exact hyield.viable
      · rintro stop us hhead ⟨y, hy⟩
        have hread : (chain .sum stop (used ++ us)).reading = .ok (e, us) := hused stop us hhead
        exact ⟨y, by rw [groupRest, hread, Reading.andThen_ok, hy, Reading.andThen_error]⟩
    · exact absurd h (by simp)

/-- If the expressions that begin later are blocked where they fail, so are factors. -/
lemma exists_blocked_factor
    (hexprs : ∀ us : List Token, us.length < ts.length → ∀ (err : ParseError) (rest : List Token),
      (chain .sum stop us).reading = .error (err, rest) →
      ∃ n, Blocked (ChainFails .sum) Expr.Viable stop us err n)
    (h : (factor stop ts).reading = .error (err, rest)) :
    ∃ n, Blocked (OperandFails .product) Expr.Viable stop ts err n := by
  cases ts with
  | nil =>
    rw [factor] at h
    obtain ⟨rfl, rfl⟩ := Prod.mk.inj (Except.error.inj h)
    refine ⟨0, blocked_factor_first (.atEnd _) fun stop us hhead => ?_⟩
    obtain rfl := List.head?_eq_none_iff.mp hhead
    rw [factor]
    exact ⟨_, rfl⟩
  | cons t ts =>
    have hexpr := hexprs ts (Nat.lt_succ_self _)
    rcases opening t with hkind | hkind | ⟨op, hkind⟩ | hkind | hfails
    · rw [factor_integer_reading ts hkind] at h
      cases hvalue : Numeral.int32? t.lexeme.toList with
      | some n => simp [hvalue] at h
      | none =>
        rw [hvalue] at h
        obtain ⟨rfl, rfl⟩ := Prod.mk.inj (Except.error.inj h)
        refine ⟨0, blocked_factor_token (.integer hkind hvalue) fun stop us => ?_⟩
        rw [factor_integer_reading us hkind, hvalue]
        exact ⟨_, rfl⟩
    · rw [factor_float_reading ts hkind] at h
      cases hvalue : Numeral.float32? t.lexeme.toList with
      | some x => simp [hvalue] at h
      | none =>
        rw [hvalue] at h
        obtain ⟨rfl, rfl⟩ := Prod.mk.inj (Except.error.inj h)
        refine ⟨0, blocked_factor_token (.float hkind hvalue) fun stop us => ?_⟩
        rw [factor_float_reading us hkind, hvalue]
        exact ⟨_, rfl⟩
    · rw [factor_sign_reading ts hkind, Reading.andThen_eq_error_iff] at h
      rcases h with h | ⟨e, after, -, h⟩
      · obtain ⟨n, hn⟩ := hexpr err rest h
        refine ⟨1 + n, hn.factor (fun us => .sign hkind) ?_⟩
        rintro stop us ⟨y, hy⟩
        exact ⟨y, by rw [factor_sign_reading us hkind, hy, Reading.andThen_error]⟩
      · exact absurd h (by simp)
    · rw [factor_group_reading ts hkind] at h
      obtain ⟨n, hn⟩ := exists_blocked_groupRest hexpr h
      refine ⟨1 + n, hn.factor (fun us => .group hkind) ?_⟩
      rintro stop us ⟨y, hy⟩
      exact ⟨y, by rw [factor_group_reading us hkind, ← hy, groupRest]⟩
    · rw [hfails t stop ts rfl] at h
      obtain ⟨rfl, rfl⟩ := Prod.mk.inj (Except.error.inj h)
      exact ⟨0, blocked_factor_token (.noExpression t) fun stop us => ⟨_, hfails t stop us rfl⟩⟩

/-- The operators of a level fail behind any left operand. -/
def MoreFails (level : Level) (stop : Position) (ts : List Token) : Prop :=
  ∀ left, ∃ y, readMore level stop left ts = .error y

/-- Behind the word of any expression these tokens are viable. -/
def Continues (ts : List Token) : Prop := ∀ us, Expr.IsYield us → Expr.Viable (us ++ ts)

/-- If the operands of a level are blocked where they fail, so is the loop that collects its
operators. -/
lemma exists_blocked_readMore {level : Level} {left : Expr}
    (hoperands : ∀ us : List Token, us.length < ts.length → ∀ (err : ParseError)
      (rest : List Token), (operand level stop us).reading = .error (err, rest) →
      ∃ n, Blocked (OperandFails level) Expr.Viable stop us err n)
    (h : readMore level stop left ts = .error (err, rest)) :
    ∃ n, Blocked (MoreFails level) Continues stop ts err n := by
  induction left, ts using readMore_induction level stop with
  | nil left => exact absurd h (by simp)
  | done left t ts hop => exact absurd h (by simp [readMore_of_none hop])
  | operator left t ts op hop ih =>
    obtain ⟨-, hkind⟩ := Level.operator?_eq_some_iff.mp hop
    rw [readMore_of_some left ts hop, Reading.andThen_eq_error_iff] at h
    rcases h with h | ⟨right, after, hright, h⟩
    · -- the right operand fails
      obtain ⟨n, hn⟩ := hoperands ts (Nat.lt_succ_self _) err rest h
      refine ⟨_, hn.shift [t] (fun us hus vs hvs => hvs.viable_operator hkind hus) ?_⟩
      rintro stop us - ⟨y, hy⟩ left
      exact ⟨y, by simp [readMore_of_some left us hop, hy]⟩
    · -- an operator further on fails
      have hlt : after.length < (t :: ts).length := Nat.lt_succ_of_lt (Parsed.length_lt hright)
      obtain ⟨n, hn⟩ := ih right after hright (fun us hus => hoperands us (Nat.lt_trans hus hlt)) h
      obtain ⟨used, rfl, hyield, hused⟩ := exists_used_of_operand hright
      refine ⟨_, hn.shift (t :: used) (fun us hus vs hvs => ?_) ?_⟩
      · have hviable := hus (vs ++ t :: used) (hvs.operator hkind hyield)
        rwa [List.append_assoc] at hviable
      · intro stop us hhead hus left
        obtain ⟨y, hy⟩ := hus (.binary op left right t.position)
        have hread := hused stop us hhead
        exact ⟨y, by simp [readMore_of_some left (used ++ us) hop, hread, hy]⟩

/-- If the operands of a level are blocked where they fail, so are the operators between them. -/
lemma exists_blocked_chain {level : Level}
    (hoperands : ∀ us : List Token, us.length ≤ ts.length → ∀ (err : ParseError)
      (rest : List Token), (operand level stop us).reading = .error (err, rest) →
      ∃ n, Blocked (OperandFails level) Expr.Viable stop us err n)
    (h : (chain level stop ts).reading = .error (err, rest)) :
    ∃ n, Blocked (ChainFails level) Expr.Viable stop ts err n := by
  rw [chain_reading, Reading.andThen_eq_error_iff] at h
  rcases h with h | ⟨left, after, hleft, h⟩
  · obtain ⟨n, hn⟩ := hoperands ts (Nat.le_refl _) err rest h
    refine ⟨n, hn.imp (fun _ => id) ?_⟩
    rintro stop us - ⟨y, hy⟩
    exact ⟨y, by rw [chain_reading, hy, Reading.andThen_error]⟩
  · obtain ⟨used, rfl, hyield, hused⟩ := exists_used_of_operand hleft
    have hle : after.length ≤ (used ++ after).length := by simp
    obtain ⟨n, hn⟩ := exists_blocked_readMore
      (fun us hus => hoperands us (Nat.le_trans (Nat.le_of_lt hus) hle)) h
    refine ⟨_, hn.shift used (fun us hus => hus used hyield) fun stop us hhead hus => ?_⟩
    obtain ⟨y, hy⟩ := hus left
    exact ⟨y, by rw [chain_reading, hused stop us hhead, Reading.andThen_ok, hy]⟩

/-- An expression is blocked where it fails. -/
theorem exists_blocked_expr (h : (expr stop ts).reading = .error (err, rest)) :
    ∃ n, Blocked (ChainFails .sum) Expr.Viable stop ts err n := by
  have hblocked := induction_on
    (fun level ts => ∀ (err : ParseError) (rest : List Token),
      (operand level stop ts).reading = .error (err, rest) →
      ∃ n, Blocked (OperandFails level) Expr.Viable stop ts err n)
    (fun level ts => ∀ (err : ParseError) (rest : List Token),
      (chain level stop ts).reading = .error (err, rest) →
      ∃ n, Blocked (ChainFails level) Expr.Viable stop ts err n)
    ?_ ?_ (fun level ts hoperands err rest => exists_blocked_chain hoperands) .sum ts
  · exact hblocked.2 err rest h
  · intro ts hexprs err rest h
    rw [operand_product_reading] at h
    exact exists_blocked_factor hexprs h
  · intro ts hproduct err rest h
    rw [operand_sum_reading] at h
    obtain ⟨n, hn⟩ := hproduct err rest h
    refine ⟨n, hn.imp (fun _ => id) ?_⟩
    rintro stop us - ⟨y, hy⟩
    exact ⟨y, (operand_sum_reading us).trans hy⟩

/-! ## Statements -/

/-- A statement is blocked where it fails. -/
lemma exists_blocked_statement (h : (statement stop ts).reading = .error (err, rest)) :
    ∃ n, Blocked (fun stop us => ∃ y, (statement stop us).reading = .error y) Program.Viable stop ts
      err n := by
  rw [statement_reading, Reading.andThen_eq_error_iff] at h
  rcases h with h | ⟨t, us, hprint, h⟩
  · refine ⟨0, (blocked_expect h).imp ?_ ?_⟩
    · rintro us rfl
      exact Program.viable_nil
    · rintro stop us - ⟨y, hy⟩
      exact ⟨y, by rw [statement_reading, hy, Reading.andThen_error]⟩
  · obtain ⟨rfl, ht⟩ := expect_eq_ok_iff.mp hprint
    rw [Reading.andThen_eq_error_iff] at h
    rcases h with h | ⟨e, after, he, h⟩
    · obtain ⟨n, hn⟩ := exists_blocked_expr h
      refine ⟨_, hn.shift [t] (fun us => Program.viable_print ht) ?_⟩
      rintro stop us - ⟨y, hy⟩
      have hexpr : (expr stop us).reading = .error y := hy
      refine ⟨y, ?_⟩
      rw [List.singleton_append, statement_reading, expect_cons stop us ht, Reading.andThen_ok,
        hexpr, Reading.andThen_error]
    · rw [Reading.andThen_eq_error_iff] at h
      rcases h with h | ⟨u, after', -, h⟩
      · -- the statement is not closed
        obtain ⟨used, rfl, hyield, hused⟩ := exists_used_of_expr he
        refine ⟨_, (blocked_expect h).shift (t :: used) ?_ ?_⟩
        · rintro us rfl
          rw [List.append_nil]
          exact Program.viable_print ht hyield.viable
        · rintro stop us hhead ⟨y, hy⟩
          refine ⟨y, ?_⟩
          rw [List.cons_append, statement_reading, expect_cons stop _ ht, Reading.andThen_ok,
            hused stop us hhead, Reading.andThen_ok, hy, Reading.andThen_error]
      · exact absurd h (by simp)

/-- Reading statements ends with an error, whatever has been found before. -/
def StatementsFail (stop : Position) (ts : List Token) : Prop :=
  ∀ found, ∃ err, (statements stop found ts).1 = .error err

/-- Statements are blocked where they fail. -/
theorem exists_blocked_statements {found : List Stmt}
    (h : (statements stop found ts).1 = .error err) :
    ∃ n, Blocked StatementsFail Program.Viable stop ts err n := by
  induction found, ts using statements_induction stop with
  | nil found => exact absurd h (by simp)
  | comment found t ts hcomment ih =>
    rw [statements_comment found ts hcomment] at h
    obtain ⟨n, hn⟩ := ih h
    refine ⟨_, hn.shift [t] (fun us hus => ?_) fun stop us _ hus found => ?_⟩
    · exact hus.append (.comment hcomment .nil) (List.forall_mem_nil _)
    · rw [List.singleton_append, statements_comment found us hcomment]
      exact hus found
  | failed found t ts err' after hcomment hread =>
    rw [statements_of_error hcomment hread] at h
    obtain rfl := Except.error.inj h
    obtain ⟨n, hn⟩ := exists_blocked_statement hread
    refine ⟨n, hn.imp (fun _ => id) ?_⟩
    rintro stop us hhead ⟨y, hy⟩ found
    obtain ⟨us, rfl⟩ := List.head?_eq_some_iff.mp hhead
    exact ⟨y.1, by rw [statements_of_error hcomment hy]⟩
  | read found t ts s after hcomment hread ih =>
    rw [statements_of_ok hcomment hread] at h
    obtain ⟨n, hn⟩ := ih h
    obtain ⟨t', us, e, u, heq, ht, he, hyields, hu, rfl⟩ := statement_eq_ok_iff_yields.mp hread
    have hone : Stmt.AllYield [.print e] (t' :: (us ++ [u])) := .print ht hyields hu .nil
    have hsplit : t :: ts = t' :: (us ++ [u]) ++ after := by simp [heq]
    rw [hsplit]
    refine ⟨_, hn.shift _ (fun vs hvs => ?_) fun stop vs _ hvs found => ?_⟩
    · exact hvs.append hone (List.forall_mem_singleton.mpr he)
    · have hread' : (statement stop (t' :: (us ++ [u] ++ vs))).reading = .ok (.print e, vs) :=
        statement_eq_ok_iff_yields.mpr ⟨t', us, e, u, by simp, ht, he, hyields, hu, rfl⟩
      have hne : t'.kind ≠ .comment := by simp [ht]
      rw [List.cons_append, statements_of_ok hne hread']
      exact hvs _

end Parser

end Reckon
