/-
# The token that makes the input hopeless

A token list that is no program is wrong at one token, and the parser tells the first one that makes
it hopeless: the tokens before it can be continued to those of a program, and with it they cannot,
whatever follows.  The end of the input counts as a token here, and what stands behind the first end
marker does not count.

The main result is `Program.ofTokens_error_at`.
-/
import Mathlib.Data.List.TakeWhile
import Reckon.Proofs.Viability

namespace Reckon

/-! ## Programs -/

lemma Operator.tokenKind_ne_eof (op : Operator) : op.tokenKind ≠ .eof := by
  cases op <;> simp [tokenKind]

lemma Expr.Yields.kind_ne_eof {e : Expr} {ts : List Token} (h : e.Yields ts) :
    ∀ t ∈ ts, t.kind ≠ .eof := by
  induction h with
  | int kind _ | float kind _ => simp [kind]
  | @binary op _ _ _ _ _ _ operator _ ihl ihr =>
    have hop := operator.trans_ne op.tokenKind_ne_eof
    exact List.forall_mem_append.mpr ⟨ihl, List.forall_mem_cons.mpr ⟨hop, ihr⟩⟩
  | @unary op _ _ _ sign _ ih =>
    exact List.forall_mem_cons.mpr ⟨sign.trans_ne op.tokenKind_ne_eof, ih⟩
  | group left _ right ih =>
    refine List.forall_mem_cons.mpr ⟨by simp [left], List.forall_mem_append.mpr ⟨ih, ?_⟩⟩
    exact List.forall_mem_singleton.mpr (by simp [right])

lemma Stmt.AllYield.kind_ne_eof {ss : List Stmt} {ts : List Token} (h : AllYield ss ts) :
    ∀ t ∈ ts, t.kind ≠ .eof := by
  induction h with
  | nil => exact List.forall_mem_nil _
  | comment kind _ ih => exact List.forall_mem_cons.mpr ⟨by simp [kind], ih⟩
  | print keyword value semi _ ih =>
    refine List.forall_mem_cons.mpr ⟨by simp [keyword], ?_⟩
    refine List.forall_mem_append.mpr ⟨value.kind_ne_eof, ?_⟩
    exact List.forall_mem_cons.mpr ⟨by simp [semi], ih⟩

/-- Viable tokens begin a token list that is parsed. -/
lemma Program.Viable.exists_ofTokens {ts : List Token} (h : Viable ts) :
    ∃ us p, ts <+: us ∧ ofTokens us = .ok p := by
  obtain ⟨us, p, hp, hyields⟩ := h
  have hahead : (ts ++ us).takeWhile (·.kind ≠ .eof) = ts ++ us :=
    List.takeWhile_eq_self_iff.mpr fun t ht => decide_eq_true (hyields.kind_ne_eof t ht)
  rw [← hahead] at hyields
  exact ⟨ts ++ us, p, List.prefix_append ts us, Parser.statements_of_allYield hyields hp []⟩

/-! ## The first end marker -/

/-- A token list with an end marker behind its last token, at the place of this token, unless the
last token is one. -/
def terminated (ts : List Token) : List Token :=
  if ts.getLast?.map Token.kind = some .eof then ts
  else ts ++ [.endAt ((ts.getLast?.map Token.position).getD .start)]

/-- The tokens that the parser looks at: those up to the first end marker. -/
def throughEnd (ts : List Token) : List Token :=
  (terminated ts).take ((terminated ts).findIdx (·.kind = .eof) + 1)

section firstEnd

variable {ts us : List Token} {e : Token}

lemma takeWhile_of_eof (hts : ∀ t ∈ ts, t.kind ≠ .eof) (he : e.kind = .eof) (us : List Token) :
    (ts ++ e :: us).takeWhile (·.kind ≠ .eof) = ts := by
  rw [List.takeWhile_append_of_pos fun t ht => decide_eq_true (hts t ht),
    List.takeWhile_cons_of_neg (by simp [he]), List.append_nil]

lemma take_findIdx_of_eof (hts : ∀ t ∈ ts, t.kind ≠ .eof) (he : e.kind = .eof) (us : List Token) :
    (ts ++ e :: us).take ((ts ++ e :: us).findIdx (·.kind = .eof) + 1) = ts ++ [e] := by
  have hidx : ts.findIdx (·.kind = .eof) = ts.length :=
    List.findIdx_eq_length.mpr fun t ht => decide_eq_false (hts t ht)
  rw [List.findIdx_append, hidx, if_neg (Nat.lt_irrefl _), List.findIdx_cons, decide_eq_true he,
    cond_true, Nat.zero_add, List.take_length_add_append]
  rfl

/-- The parser looks at the tokens before the first end marker and at this marker. -/
lemma Parser.exists_throughEnd (ts : List Token) : ∃ e : Token, e.kind = .eof ∧
    e.position = (ofTokens ts).stop ∧ throughEnd ts = (ofTokens ts).ahead ++ [e] := by
  cases hfind : ts.find? (·.kind = .eof) with
  | some e =>
    obtain ⟨he, before, after, rfl, hbefore⟩ := List.find?_eq_some_iff_append.mp hfind
    simp only [decide_eq_true_eq] at he
    simp only [Bool.not_eq_true', decide_eq_false_iff_not] at hbefore
    have hterminated : ∃ us, terminated (before ++ e :: after) = before ++ e :: us := by
      unfold terminated
      split
      · exact ⟨after, rfl⟩
      · exact ⟨_, by rw [List.append_assoc, List.cons_append]⟩
    obtain ⟨us, hus⟩ := hterminated
    refine ⟨e, he, ?_, ?_⟩
    · simp only [ofTokens, hfind]
      rfl
    · rw [throughEnd, hus, take_findIdx_of_eof hbefore he, ofTokens, takeWhile_of_eof hbefore he]
  | none =>
    have hts : ∀ t ∈ ts, t.kind ≠ .eof := by simpa using hfind
    have hlast : ts.getLast?.map Token.kind ≠ some .eof := by
      intro hlast
      obtain ⟨t, ht, hkind⟩ := Option.map_eq_some_iff.mp hlast
      exact hts t (List.mem_of_getLast? ht) hkind
    have hahead : ts.takeWhile (·.kind ≠ .eof) = ts :=
      List.takeWhile_eq_self_iff.mpr fun t ht => decide_eq_true (hts t ht)
    refine ⟨.endAt (ofTokens ts).stop, rfl, rfl, ?_⟩
    have hterminated : terminated ts = ts ++ [.endAt (ofTokens ts).stop] := by
      simp only [terminated, if_neg hlast, ofTokens, hfind, Option.none_or]
    rw [throughEnd, hterminated, take_findIdx_of_eof hts rfl, ofTokens, hahead]

/-- A token list that begins with some of the tokens that the parser looks at has the same tokens
there before its end. -/
lemma Parser.ahead_take_eq {k : ℕ} (hk : k ≤ (ofTokens ts).ahead.length)
    (h : (throughEnd ts).take (k + 1) <+: us) :
    (ofTokens us).ahead.take (k + 1) = (ofTokens ts).ahead.take (k + 1) := by
  obtain ⟨e, he, -, hthrough⟩ := exists_throughEnd ts
  obtain ⟨vs, rfl⟩ := h
  have hahead : ∀ t ∈ (ofTokens ts).ahead, t.kind ≠ .eof := fun t ht => by
    simpa using List.mem_takeWhile_imp ht
  rw [hthrough]
  rcases Nat.lt_or_eq_of_le hk with hlt | rfl
  · have htake : ∀ t ∈ (ofTokens ts).ahead.take (k + 1), decide (t.kind ≠ .eof) = true :=
      fun t ht => decide_eq_true (hahead t (List.mem_of_mem_take ht))
    have hlength : ((ofTokens ts).ahead.take (k + 1)).length = k + 1 := by
      rw [List.length_take, Nat.min_eq_left hlt]
    rw [List.take_append_of_le_length hlt]
    simp only [ofTokens] at htake hlength ⊢
    rw [List.takeWhile_append_of_pos htake]
    exact List.take_left' hlength
  · have hall : ((ofTokens ts).ahead ++ [e]).take ((ofTokens ts).ahead.length + 1) =
        (ofTokens ts).ahead ++ [e] := List.take_of_length_le (by simp)
    have hus := takeWhile_of_eof hahead he vs
    rw [hall, List.append_assoc]
    simp only [ofTokens] at hus ⊢
    rw [List.singleton_append, hus]

end firstEnd

/-! ## The place of an error -/

/-- An expression may stand behind these tokens: with any expression they begin a token list that is
parsed. -/
def Program.AwaitsExpression (ts : List Token) : Prop :=
  ∀ ws, Nonterminal.expression.Derives ws → (∀ w ∈ ws, w.Readable) →
    ∃ us p, ts ++ ws <+: us ∧ ofTokens us = .ok p

/-- An error is at the token `t`, the number `k` of those that the parser looks at. -/
structure ParseError.IsAt (err : ParseError) (ts : List Token) (k : ℕ) (t : Token) : Prop where
  token : (throughEnd ts)[k]? = some t
  position : err.position = t.position
  /-- Some token list that begins with the tokens before it is parsed. -/
  viable : ∃ us p, (throughEnd ts).take k <+: us ∧ Program.ofTokens us = .ok p
  /-- None that begins with these tokens and this one is. -/
  hopeless : ∀ us p, (throughEnd ts).take (k + 1) <+: us → Program.ofTokens us ≠ .ok p
  /-- The error is that the input ends just if the token is the end marker. -/
  atEnd : (∃ wanted, err.cause = .unexpectedEnd wanted) ↔ t.kind = .eof
  /-- A numeral is told with its lexeme.  It is not that of an integer, and it stands where an
  expression may. -/
  integer : ∀ lexeme, err.cause = .invalidInteger lexeme → lexeme = t.lexeme ∧
    t.kind = .integer ∧ Numeral.int32? t.lexeme.toList = none ∧
    Program.AwaitsExpression ((throughEnd ts).take k)
  /-- The same for a numeral with a point. -/
  float : ∀ lexeme, err.cause = .invalidFloat lexeme → lexeme = t.lexeme ∧
    t.kind = .float ∧ Numeral.float32? t.lexeme.toList = none ∧
    Program.AwaitsExpression ((throughEnd ts).take k)

/-- **An error is at the first token that makes the input hopeless.**  Of the tokens up to the first
end marker, which is put behind the last token if that is none, there is one at whose place the
error is.  The tokens before it begin a token list that is parsed, and with it they do not.  The
error is that the input ends just if this token is the end marker, and a numeral in the error is the
lexeme of this token, which is unreadable and stands where an expression may. -/
theorem Program.ofTokens_error_at {ts : List Token} {err : ParseError}
    (h : ofTokens ts = .error err) : ∃ k t, err.IsAt ts k t := by
  obtain ⟨e, he, hposition, hthrough⟩ := Parser.exists_throughEnd ts
  obtain ⟨k, hk⟩ := Parser.exists_blocked_statements h
  have htake : (throughEnd ts).take k = (Parser.ofTokens ts).ahead.take k := by
    rw [hthrough, List.take_append_of_le_length hk.le]
  have hhopeless (us : List Token) (p : Program) (hus : (throughEnd ts).take (k + 1) <+: us) :
      ofTokens us ≠ .ok p := by
    intro hok
    have hahead := Parser.ahead_take_eq hk.le hus
    obtain ⟨err', herr'⟩ := hk.fails (Parser.ofTokens us).stop (Parser.ofTokens us).ahead hahead []
    exact absurd (herr'.symm.trans hok) (by simp)
  have hexpression (hcause : err.cause.AsksForExpression) :
      AwaitsExpression ((throughEnd ts).take k) := by
    intro ws hderives hreadable
    rw [htake]
    exact (hk.expression hcause ws (hderives.hasTree hreadable)).exists_ofTokens
  have hviable := hk.begins.exists_ofTokens
  have htells := hk.tells
  rw [← htake] at hviable
  cases hahead : (Parser.ofTokens ts).ahead[k]? with
  | none =>
    -- the input ends at the token
    have hlength : k = (Parser.ofTokens ts).ahead.length :=
      Nat.le_antisymm hk.le (List.getElem?_eq_none_iff.mp hahead)
    have htoken : (throughEnd ts)[k]? = some e := by
      rw [hthrough, hlength, List.getElem?_concat_length]
    rw [hahead] at htells
    cases htells with
    | atEnd wanted =>
      exact ⟨k, e, htoken, hposition.symm, hviable, hhopeless, iff_of_true ⟨wanted, rfl⟩ he,
        nofun, nofun⟩
  | some t =>
    have hlt : k < (Parser.ofTokens ts).ahead.length := (List.getElem?_eq_some_iff.mp hahead).1
    have htoken : (throughEnd ts)[k]? = some t := by
      rw [hthrough, List.getElem?_append_left hlt, hahead]
    have hkind : t.kind ≠ .eof := by
      simpa using List.mem_takeWhile_imp (List.mem_of_getElem? hahead)
    rw [hahead] at htells
    refine ⟨k, t, htoken, htells.position, hviable, hhopeless, iff_of_false ?_ hkind, ?_, ?_⟩
    · rintro ⟨wanted, hwanted⟩
      cases htells <;> exact absurd hwanted (by simp)
    · intro lexeme hlexeme
      cases htells with
      | integer kind unreadable =>
        exact ⟨(ParseError.Cause.invalidInteger.inj hlexeme).symm, kind, unreadable,
          hexpression trivial⟩
      | _ => exact absurd hlexeme (by simp)
    · intro lexeme hlexeme
      cases htells with
      | float kind unreadable =>
        exact ⟨(ParseError.Cause.invalidFloat.inj hlexeme).symm, kind, unreadable,
          hexpression trivial⟩
      | _ => exact absurd hlexeme (by simp)

/-- An expression fails where its first factor does. -/
lemma Parser.chain_sum_of_error {stop : Position} {ts : List Token} {y : ParseError × List Token}
    (h : (factor stop ts).reading = .error y) : (chain .sum stop ts).reading = .error y := by
  rw [chain_reading, operand_sum_reading, chain_reading, operand_product_reading, h]
  rfl

/-- In `print - ( 2147483648` the numeral is where the input becomes hopeless, although the group
and the statement are not closed either. -/
theorem Program.ofTokens_error_at_numeral :
    let ts : List Token := [⟨.print, "print", ⟨1, 1⟩⟩, ⟨.minus, "-", ⟨1, 7⟩⟩,
      ⟨.lparen, "(", ⟨1, 9⟩⟩, ⟨.integer, "2147483648", ⟨1, 11⟩⟩]
    ofTokens ts = .error ⟨.invalidInteger "2147483648", ⟨1, 11⟩⟩ ∧
      ∃ k t, ParseError.IsAt ⟨.invalidInteger "2147483648", ⟨1, 11⟩⟩ ts k t := by
  intro ts
  have hvalue : Numeral.int32? "2147483648".toList = none := by decide
  have hnumeral : (Parser.chain .sum ⟨1, 11⟩ [⟨.integer, "2147483648", ⟨1, 11⟩⟩]).reading =
      .error (⟨.invalidInteger "2147483648", ⟨1, 11⟩⟩, []) := by
    apply Parser.chain_sum_of_error
    rw [Parser.factor_integer_reading [] rfl, hvalue]
  have hgroup : (Parser.chain .sum ⟨1, 11⟩ (ts.drop 2)).reading =
      .error (⟨.invalidInteger "2147483648", ⟨1, 11⟩⟩, []) := by
    apply Parser.chain_sum_of_error
    rw [show ts.drop 2 = ⟨.lparen, "(", ⟨1, 9⟩⟩ :: ts.drop 3 from rfl,
      Parser.factor_group_reading (ts.drop 3) rfl]
    exact congrArg (Reading.andThen · _) hnumeral
  have hsign : (Parser.expr ⟨1, 11⟩ (ts.drop 1)).reading =
      .error (⟨.invalidInteger "2147483648", ⟨1, 11⟩⟩, []) := by
    have hminus : Level.sum.operator? (Token.kind ⟨.minus, "-", ⟨1, 7⟩⟩) = some .minus := rfl
    apply Parser.chain_sum_of_error
    rw [show ts.drop 1 = ⟨.minus, "-", ⟨1, 7⟩⟩ :: ts.drop 2 from rfl,
      Parser.factor_sign_reading (ts.drop 2) hminus]
    exact congrArg (Reading.andThen · _) hgroup
  have hstatement : (Parser.statement ⟨1, 11⟩ ts).reading =
      .error (⟨.invalidInteger "2147483648", ⟨1, 11⟩⟩, []) := by
    have hprint : (Parser.expect .print ⟨1, 11⟩ ts).reading =
        .ok (⟨.print, "print", ⟨1, 1⟩⟩, ts.drop 1) := Parser.expect_cons _ _ rfl
    rw [Parser.statement_reading, hprint, Reading.andThen_ok, hsign, Reading.andThen_error]
  have herror : ofTokens ts = .error ⟨.invalidInteger "2147483648", ⟨1, 11⟩⟩ :=
    congrArg Prod.fst (Parser.statements_of_error (by decide) hstatement)
  exact ⟨herror, ofTokens_error_at herror⟩

end Reckon
