/-
# Walks over a token list

Reading by an index, `Walk.factor` and the other walks, may be without a result, and a move may be
refused.  Here it is shown that neither comes about where an end marker is ahead and the depth is
six times the number of tokens before it, or a little more.

`Walk.Ahead tokens m i ts` says that the tokens from the index `i` up to the next end marker, which
is at the index `m`, are `ts`.  What the functions of the parser give for `ts`, the walks give at
`i`, and what these functions leave of `ts` stands at the index that the walks leave:
`Walk.Agrees`.  For the walks over expressions, which call each other, this is shown from one depth
to the next, `Walk.AgreesTo`, and readings in a row are compared by `Walk.Agrees.bind`.
-/
import Reckon.Parser.Walk
import Reckon.Proofs.Exactness
import Reckon.Proofs.Resumption

namespace Reckon

namespace Walk

variable {α β : Type} {tokens : List Token} {m i j n : ℕ} {t e : Token} {ts rest : List Token}

/-! ## Steps -/

@[simp]
lemma result_throw (err : ParseError) (i : ℕ) :
    (throw err : Walk α).result i = some (.error err, i) := rfl

lemma result_bind_of_ok {x : Walk α} {f : α → Walk β} {a : α}
    (h : x.result i = some (.ok a, j)) : (x >>= f).result i = (f a).result j := by
  unfold result at h ⊢
  rw [ExceptT.run_bind, StateT.run_bind, h]
  rfl

lemma result_bind_of_error {x : Walk α} {f : α → Walk β} {err : ParseError}
    (h : x.result i = some (.error err, j)) : (x >>= f).result i = some (.error err, j) := by
  unfold result at h ⊢
  rw [ExceptT.run_bind, StateT.run_bind, h]
  rfl

lemma result_current (h : tokens[i]? = some t) : (current tokens).result i = some (.ok t, i) :=
  congrArg (Option.map _) h

/-- A move is not refused at a token that is not the last one. -/
lemma result_advance (h : i + 1 < tokens.length) :
    (advance tokens).result i = some (.ok (), i + 1) := by
  have hlt : i < tokens.length - 1 := by omega
  change some (Except.ok (), if i < tokens.length - 1 then i + 1 else i) = _
  rw [if_pos hlt]

/-! ## What is ahead of an index -/

/-- From the index `i` on the tokens up to the end marker at the index `m` are `ts`. -/
structure Ahead (tokens : List Token) (m i : ℕ) (ts : List Token) : Prop where
  index : i + ts.length = m
  drop : tokens.drop i = ts ++ tokens.drop m
  kinds : ∀ t ∈ ts, t.kind ≠ .eof

/-- There is an end marker at an index. -/
structure EndsAt (tokens : List Token) (m : ℕ) (e : Token) : Prop where
  token : tokens[m]? = some e
  kind : e.kind = .eof

namespace Ahead

lemma eq_of_nil (h : Ahead tokens m i []) : i = m := h.index

lemma kind_ne (h : Ahead tokens m i (t :: ts)) : t.kind ≠ .eof := h.kinds t List.mem_cons_self

lemma getElem? (h : Ahead tokens m i (t :: ts)) : tokens[i]? = some t := by
  rw [← List.head?_drop, h.drop]
  rfl

lemma tail (h : Ahead tokens m i (t :: ts)) : Ahead tokens m (i + 1) ts where
  index := by
    have hindex := h.index
    rw [List.length_cons] at hindex
    omega
  drop := by
    rw [← List.drop_drop, h.drop]
    rfl
  kinds u hu := h.kinds u (List.mem_cons_of_mem t hu)

lemma le (h : Ahead tokens m i ts) : i ≤ m := h.index ▸ Nat.le_add_right i _

/-- The index is told by what is ahead of it. -/
lemma eq_sub (h : Ahead tokens m i ts) : i = m - ts.length := by
  have hindex := h.index
  omega

/-- Some of what is ahead is ahead of a later index. -/
lemma of_suffix (h : Ahead tokens m i ts) (hrest : rest <:+ ts) :
    Ahead tokens m (m - rest.length) rest := by
  obtain ⟨used, rfl⟩ := hrest
  have hindex := h.index
  rw [List.length_append] at hindex
  refine ⟨by omega, ?_, fun u hu => h.kinds u (List.mem_append_right used hu)⟩
  have hm : m - rest.length = i + used.length := by omega
  rw [hm, ← List.drop_drop, h.drop, List.append_assoc, List.drop_left]

end Ahead

/-! ## Walks and the parser -/

/-- A walk gives what a function of the parser gives, and leaves the index of what this function
leaves. -/
inductive Agrees (tokens : List Token) (m : ℕ) :
    Option (Except ParseError α × ℕ) → Reading α → Prop
  | value {a : α} {j : ℕ} {rest : List Token} (ahead : Ahead tokens m j rest) :
      Agrees tokens m (some (.ok a, j)) (.ok (a, rest))
  | error {err : ParseError} {j : ℕ} {rest : List Token} (ahead : Ahead tokens m j rest) :
      Agrees tokens m (some (.error err, j)) (.error (err, rest))

lemma Agrees.of_ok {x : Option (Except ParseError α × ℕ)} {a : α}
    (h : Agrees tokens m x (.ok (a, rest))) : ∃ j, x = some (.ok a, j) ∧ Ahead tokens m j rest := by
  cases h with
  | value ahead => exact ⟨_, rfl, ahead⟩

lemma Agrees.of_error {x : Option (Except ParseError α × ℕ)} {err : ParseError}
    (h : Agrees tokens m x (.error (err, rest))) :
    ∃ j, x = some (.error err, j) ∧ Ahead tokens m j rest := by
  cases h with
  | error ahead => exact ⟨_, rfl, ahead⟩

/-- Walks in a row agree with readings in a row. -/
lemma Agrees.bind {x : Walk α} {f : α → Walk β} {y : Reading α} {g : α → List Token → Reading β}
    (h : Agrees tokens m (x.result i) y)
    (hf : ∀ a j rest, y = .ok (a, rest) → Ahead tokens m j rest →
      Agrees tokens m ((f a).result j) (g a rest)) :
    Agrees tokens m ((x >>= f).result i) (y.andThen g) := by
  generalize hx : x.result i = found at h
  cases h with
  | value ahead =>
    rw [result_bind_of_ok hx]
    exact hf _ _ _ rfl ahead
  | error ahead =>
    rw [result_bind_of_error hx]
    exact .error ahead

/-- Where no keyword stands, no statement does. -/
lemma statement_reading_of_ne (stop : Position) (ts : List Token) (h : t.kind ≠ .print) :
    (Parser.statement stop (t :: ts)).reading =
      .error (⟨.unexpectedToken .print t.kind, t.position⟩, t :: ts) := by
  rw [Parser.statement_reading, Parser.expect_of_ne stop ts h]
  rfl

section depth

variable {stop : Position}

/-- To the depth `n` the walks over expressions agree with the parser where the depth is enough for
the tokens ahead.  Six steps of it are enough for each of them, and a part of six for what a call
does before it takes a token. -/
structure AgreesTo (tokens : List Token) (m : ℕ) (stop : Position) (n : ℕ) : Prop where
  factor : ∀ {i : ℕ} {ts : List Token}, Ahead tokens m i ts → 6 * ts.length < n →
    Agrees tokens m ((factor tokens n).result i) (Parser.factor stop ts).reading
  signed : ∀ {op : Operator} {i : ℕ} {t : Token} {ts : List Token}, Ahead tokens m i (t :: ts) →
    6 * ts.length + 5 < n →
    Agrees tokens m ((signed tokens op n).result i) (Parser.signed op stop ts).reading
  operand : ∀ {level : Level} {i : ℕ} {ts : List Token}, Ahead tokens m i ts →
    6 * ts.length + 2 * level.rank + 1 < n →
    Agrees tokens m ((operand tokens level n).result i) (Parser.operand level stop ts).reading
  chain : ∀ {level : Level} {i : ℕ} {ts : List Token}, Ahead tokens m i ts →
    6 * ts.length + 2 * level.rank + 2 < n →
    Agrees tokens m ((chain tokens level n).result i) (Parser.chain level stop ts).reading
  more : ∀ {level : Level} {left : Expr} {i : ℕ} {ts : List Token}, Ahead tokens m i ts →
    6 * ts.length < n →
    Agrees tokens m ((more tokens level left n).result i) (Parser.readMore level stop left ts)

/-- Expressions are the operands of sums with the operators between them. -/
lemma AgreesTo.expr (hn : AgreesTo tokens m stop n) (h : Ahead tokens m i ts)
    (hdepth : 6 * ts.length + 4 < n) :
    Agrees tokens m ((Walk.chain tokens .sum n).result i) (Parser.expr stop ts).reading :=
  hn.chain h hdepth

lemma operand_succ (hn : AgreesTo tokens m stop n) {level : Level}
    (h : Ahead tokens m i ts) (hdepth : 6 * ts.length + 2 * level.rank + 1 < n + 1) :
    Agrees tokens m ((operand tokens level (n + 1)).result i)
      (Parser.operand level stop ts).reading := by
  cases level with
  | product =>
    simp only [Level.rank] at hdepth
    rw [operand, Parser.operand_product_reading]
    exact hn.factor h (by omega)
  | sum =>
    rw [operand, Parser.operand_sum_reading]
    exact hn.chain h (Nat.lt_of_succ_lt_succ hdepth)

lemma chain_succ (hn : AgreesTo tokens m stop n) {level : Level}
    (h : Ahead tokens m i ts) (hdepth : 6 * ts.length + 2 * level.rank + 2 < n + 1) :
    Agrees tokens m ((chain tokens level (n + 1)).result i)
      (Parser.chain level stop ts).reading := by
  rw [chain, Parser.chain_reading]
  refine (hn.operand h (by omega)).bind fun left j after hleft ahead => ?_
  have hlt : after.length < ts.length := Parsed.length_lt hleft
  exact hn.more ahead (by omega)

end depth

section agreement

variable (hend : EndsAt tokens m e)

include hend

lemma EndsAt.result_advance (h : Ahead tokens m i (t :: ts)) :
    (advance tokens).result i = some (.ok (), i + 1) := by
  have hm : m < tokens.length := (List.getElem?_eq_some_iff.mp hend.token).1
  exact Walk.result_advance (Nat.lt_of_le_of_lt h.tail.le hm)

/-- Behind a move a walk goes on with the tokens that remain. -/
lemma EndsAt.result_advance_bind (h : Ahead tokens m i (t :: ts)) (f : Unit → Walk α) :
    (advance tokens >>= f).result i = (f ()).result (i + 1) :=
  result_bind_of_ok (hend.result_advance h)

lemma EndsAt.expect_agrees {kind : TokenKind} (hkind : kind ≠ .eof) (h : Ahead tokens m i ts) :
    Agrees tokens m ((expect tokens kind).result i)
      (Parser.expect kind e.position ts).reading := by
  unfold expect
  cases ts with
  | nil =>
    obtain rfl := h.eq_of_nil
    rw [result_bind_of_ok (result_current hend.token), if_neg (by simp [hend.kind, hkind.symm])]
    simp only [unexpected, if_pos hend.kind]
    exact .error h
  | cons t ts =>
    rw [result_bind_of_ok (result_current h.getElem?)]
    by_cases ht : t.kind = kind
    · rw [if_pos ht, hend.result_advance_bind h, Parser.expect_cons e.position ts ht]
      exact .value h.tail
    · rw [if_neg ht, Parser.expect_of_ne e.position ts ht]
      simp only [unexpected, if_neg h.kind_ne]
      exact .error h

lemma EndsAt.signed_succ (hn : AgreesTo tokens m e.position n) {op : Operator}
    (h : Ahead tokens m i (t :: ts)) (hdepth : 6 * ts.length + 5 < n + 1) :
    Agrees tokens m ((signed tokens op (n + 1)).result i)
      (Parser.signed op e.position ts).reading := by
  rw [signed, hend.result_advance_bind h, Parser.signed_reading]
  exact (hn.expr h.tail (by omega)).bind fun operand j rest _ ahead => .value ahead

lemma EndsAt.factor_succ (hn : AgreesTo tokens m e.position n) (h : Ahead tokens m i ts)
    (hdepth : 6 * ts.length < n + 1) :
    Agrees tokens m ((factor tokens (n + 1)).result i)
      (Parser.factor e.position ts).reading := by
  rw [factor]
  cases ts with
  | nil =>
    obtain rfl := h.eq_of_nil
    rw [result_bind_of_ok (result_current hend.token), Parser.factor.eq_def]
    simp only [hend.kind]
    exact .error h
  | cons t ts =>
    rw [List.length_cons] at hdepth
    rw [result_bind_of_ok (result_current h.getElem?)]
    cases hkind : t.kind with
    | integer =>
      rw [Parser.factor_integer_reading ts hkind]
      simp only [hend.result_advance_bind h]
      cases Numeral.int32? t.lexeme.toList with
      | some n => exact .value h.tail
      | none => exact .error h.tail
    | float =>
      rw [Parser.factor_float_reading ts hkind]
      simp only [hend.result_advance_bind h]
      cases Numeral.float32? t.lexeme.toList with
      | some x => exact .value h.tail
      | none => exact .error h.tail
    | plus | minus =>
      rw [Parser.factor_sign ts (congrArg Level.sum.operator? hkind)]
      exact hn.signed h (by omega)
    | lparen =>
      rw [Parser.factor_group_reading ts hkind]
      simp only [hend.result_advance_bind h]
      refine (hn.expr h.tail (by omega)).bind fun inner j after _ ahead => ?_
      exact (hend.expect_agrees (by simp) ahead).bind fun _ _ _ _ ahead' => .value ahead'
    | eof => exact absurd hkind h.kind_ne
    | _ =>
      rw [Parser.factor.eq_def]
      simp only [hkind]
      exact .error h

lemma EndsAt.more_succ (hn : AgreesTo tokens m e.position n) {level : Level} {left : Expr}
    (h : Ahead tokens m i ts) (hdepth : 6 * ts.length < n + 1) :
    Agrees tokens m ((more tokens level left (n + 1)).result i)
      (Parser.readMore level e.position left ts) := by
  rw [more]
  cases ts with
  | nil =>
    obtain rfl := h.eq_of_nil
    have hop : level.operator? e.kind = none := by
      rw [hend.kind]
      cases level <;> rfl
    rw [result_bind_of_ok (result_current hend.token), Parser.readMore_nil]
    simp only [hop]
    exact .value h
  | cons t ts =>
    rw [List.length_cons] at hdepth
    rw [result_bind_of_ok (result_current h.getElem?)]
    cases hop : level.operator? t.kind with
    | none =>
      rw [Parser.readMore_of_none hop]
      exact .value h
    | some op =>
      have hrank : level.rank ≤ 1 := by cases level <;> simp [Level.rank]
      rw [Parser.readMore_of_some left ts hop]
      simp only [hend.result_advance_bind h]
      refine (hn.operand h.tail (by omega)).bind fun right j after hright ahead => ?_
      have hlt : after.length < ts.length := Parsed.length_lt hright
      exact hn.more ahead (by omega)

/-- To each depth the walks over expressions agree with the parser. -/
theorem EndsAt.agreesTo (n : ℕ) : AgreesTo tokens m e.position n := by
  induction n with
  | zero => constructor <;> exact fun _ hdepth => absurd hdepth (Nat.not_lt_zero _)
  | succ n ih =>
    exact ⟨hend.factor_succ ih, hend.signed_succ ih, operand_succ ih, chain_succ ih,
      hend.more_succ ih⟩

/-- A statement is read as by the parser, if the depth is enough for the tokens ahead. -/
theorem EndsAt.statement_agrees (h : Ahead tokens m i ts) (hdepth : 6 * ts.length ≤ n) :
    Agrees tokens m ((statement tokens n).result i) (Parser.statement e.position ts).reading := by
  rw [statement, Parser.statement_reading]
  refine (hend.expect_agrees (by simp) h).bind fun _ j us hprint hus => ?_
  have hlt : us.length < ts.length := Parsed.length_lt hprint
  refine ((hend.agreesTo n).expr hus (by omega)).bind fun value k after _ hafter => ?_
  exact (hend.expect_agrees (by simp) hafter).bind fun _ _ _ _ ahead => .value ahead

/-- Statements are read as by the parser, and what the parser leaves is ahead of the index that is
left. -/
theorem EndsAt.statements_agree (found : List Stmt) (h : Ahead tokens m i ts)
    (hdepth : 6 * ts.length < n) :
    ∃ j, (statements tokens found n).result i =
        some ((Parser.statements e.position found ts).1, j) ∧
      Ahead tokens m j (Parser.statements e.position found ts).2 := by
  induction found, ts using Parser.statements_induction e.position generalizing i n with
  | nil found =>
    obtain ⟨n, rfl⟩ := Nat.exists_eq_succ_of_ne_zero (Nat.ne_zero_of_lt hdepth)
    obtain rfl := h.eq_of_nil
    rw [statements, result_bind_of_ok (result_current hend.token), Parser.statements_nil]
    simp only [hend.kind]
    exact ⟨i, rfl, h⟩
  | comment found t ts hcomment ih =>
    obtain ⟨n, rfl⟩ := Nat.exists_eq_succ_of_ne_zero (Nat.ne_zero_of_lt hdepth)
    rw [List.length_cons] at hdepth
    rw [statements, result_bind_of_ok (result_current h.getElem?),
      Parser.statements_comment found ts hcomment]
    simp only [hcomment, hend.result_advance_bind h]
    exact ih h.tail (by omega)
  | failed found t ts err rest hcomment hread =>
    obtain ⟨n, rfl⟩ := Nat.exists_eq_succ_of_ne_zero (Nat.ne_zero_of_lt hdepth)
    rw [statements, result_bind_of_ok (result_current h.getElem?),
      Parser.statements_of_error hcomment hread]
    by_cases hprint : t.kind = .print
    · have hagrees := hend.statement_agrees h (Nat.le_of_lt_succ hdepth)
      rw [hread] at hagrees
      obtain ⟨j, hj, ahead⟩ := hagrees.of_error
      simp only [hprint]
      exact ⟨j, result_bind_of_error hj, ahead⟩
    · rw [statement_reading_of_ne e.position ts hprint] at hread
      obtain ⟨rfl, rfl⟩ := Prod.mk.inj (Except.error.inj hread)
      refine ⟨i, ?_, h⟩
      cases hkind : t.kind with
      | print => exact absurd hkind hprint
      | comment => exact absurd hkind hcomment
      | eof => exact absurd hkind h.kind_ne
      | _ => simp [unexpected, hkind]
  | read found t ts s rest hcomment hread ih =>
    obtain ⟨n, rfl⟩ := Nat.exists_eq_succ_of_ne_zero (Nat.ne_zero_of_lt hdepth)
    obtain ⟨u, us, -, -, heq, hprint, -⟩ := Parser.statement_eq_ok_iff.mp hread
    obtain rfl := (List.cons.inj heq).1
    have hagrees := hend.statement_agrees h (Nat.le_of_lt_succ hdepth)
    rw [hread] at hagrees
    obtain ⟨j, hj, ahead⟩ := hagrees.of_ok
    rw [statements, result_bind_of_ok (result_current h.getElem?),
      Parser.statements_of_ok hcomment hread]
    simp only [hprint]
    rw [result_bind_of_ok hj]
    have hlt : rest.length < (t :: ts).length := Parsed.length_lt hread
    exact ih ahead (by omega)

end agreement

end Walk

end Reckon
