/-
# Where walks stop

A walk that begins at a token of a list whose last token is an end marker has a result.  It leaves
the index of a token: behind a value this is a later one, and with an error it is the one that the
error is about, or the one behind it if that is a numeral, `Walk.Advances`.

Where an expression ends, no operator follows.  The operand of a sign is an expression, and so no
operator can take the result of a sign as its left operand, `Expr.NoSignLeft`.

The main result is `Walk.walks_advance`.
-/
import Reckon.Proofs.Walks

namespace Reckon

/-! ## Signs and left operands -/

namespace Expr

/-- No left operand is the result of a sign or ends with one. -/
def NoSignLeft : Expr → Prop
  | binary _ l r _ => ¬ l.OpenRight ∧ l.NoSignLeft ∧ r.NoSignLeft
  | unary _ e | group e => e.NoSignLeft
  | _ => True

lemma Canonical.noSignLeft {e : Expr} (h : e.Canonical) : e.NoSignLeft := by
  induction h with
  | int | float => trivial
  | binary _ _ _ _ closed ihl ihr => exact ⟨closed, ihl, ihr⟩
  | unary _ _ ih | group _ ih => exact ih

end Expr

/-! ## What the parser sees from an index on -/

/-- The result of a reading, with the index of what remains when `m` is that of the end. -/
def Reading.indexed {α : Type} (m : ℕ) : Reading α → Except ParseError α × ℕ
  | .ok (a, rest) => (.ok a, m - rest.length)
  | .error (err, rest) => (.error err, m - rest.length)

namespace Parser

/-- The parser of the tokens from an index on. -/
def ofIndex (tokens : List Token) (i : ℕ) : Parser := ofTokens (tokens.drop i)

lemma ofTokens_of_eof {ts : List Token} {e : Token} (hts : ∀ t ∈ ts, t.kind ≠ .eof)
    (he : e.kind = .eof) (us : List Token) : ofTokens (ts ++ e :: us) = ⟨ts, e.position⟩ := by
  have hfind : (ts ++ e :: us).find? (·.kind = .eof) = some e := by
    rw [List.find?_append, List.find?_eq_none.mpr (by simpa using hts),
      List.find?_cons_of_pos (by simp [he])]
    rfl
  rw [ofTokens, takeWhile_of_eof hts he, hfind]
  rfl

end Parser

/-- The last token is an end marker. -/
lemma getLast?_terminated (ts : List Token) :
    (terminated ts).getLast?.map Token.kind = some .eof := by
  unfold terminated
  split
  case isTrue h => exact h
  case isFalse => rw [List.getLast?_concat]; rfl

namespace Walk

variable {α : Type} {tokens : List Token} {m i j : ℕ} {e : Token} {ts rest : List Token}

/-- From each token on there are tokens up to an end marker, if the last token is one. -/
lemma exists_ahead (hlast : tokens.getLast?.map Token.kind = some .eof) (hi : i < tokens.length) :
    ∃ m e, EndsAt tokens m e ∧ (Parser.ofIndex tokens i).stop = e.position ∧
      Ahead tokens m i (Parser.ofIndex tokens i).ahead := by
  obtain ⟨u, hu, hkind⟩ := Option.map_eq_some_iff.mp hlast
  have hmem : u ∈ tokens.drop i := by
    apply List.mem_of_getLast?
    rw [List.getLast?_drop, if_neg (Nat.not_le.mpr hi), hu]
  have hsome : ((tokens.drop i).find? (·.kind = .eof)).isSome :=
    List.find?_isSome.mpr ⟨u, hmem, by simpa using hkind⟩
  obtain ⟨e, hfind⟩ := Option.isSome_iff_exists.mp hsome
  obtain ⟨he, before, after, heq, hbefore⟩ := List.find?_eq_some_iff_append.mp hfind
  simp only [decide_eq_true_eq] at he
  simp only [Bool.not_eq_true', decide_eq_false_iff_not] at hbefore
  have hdrop : tokens.drop (i + before.length) = e :: after := by
    rw [← List.drop_drop, heq, List.drop_left]
  have hindex : Parser.ofIndex tokens i = ⟨before, e.position⟩ := by
    rw [Parser.ofIndex, heq, Parser.ofTokens_of_eof hbefore he]
  refine ⟨i + before.length, e, ⟨?_, he⟩, by rw [hindex], ?_⟩
  · rw [← List.head?_drop, hdrop]
    rfl
  · rw [hindex]
    exact ⟨rfl, by rw [hdrop, heq], hbefore⟩

/-! ## Progress -/

/-- What a walk from the index `i` on does: it has a result and leaves the index of a token. -/
inductive Advances (tokens : List Token) (i : ℕ) : Option (Except ParseError α × ℕ) → Prop
  /-- Behind a value the index is a later one. -/
  | value {a : α} {j : ℕ} (later : i < j) (inside : j < tokens.length) :
      Advances tokens i (some (.ok a, j))
  /-- An error is at the token that comes next. -/
  | error {err : ParseError} {j : ℕ} {t : Token} (later : i ≤ j) (token : tokens[j]? = some t)
      (place : err.position = t.position) (other : ¬ err.cause.IsNumeral) :
      Advances tokens i (some (.error err, j))
  /-- A numeral that is not that of a number has been passed. -/
  | numeral {err : ParseError} {j : ℕ} {t : Token} (later : i ≤ j) (token : tokens[j]? = some t)
      (place : err.position = t.position)
      (cause : err.cause = .invalidInteger t.lexeme ∨ err.cause = .invalidFloat t.lexeme)
      (inside : j + 1 < tokens.length) : Advances tokens i (some (.error err, j + 1))

/-- A token comes next, and it is no operator. -/
def AtNoOperator (tokens : List Token) (j : ℕ) : Prop :=
  ∃ t, tokens[j]? = some t ∧ t.kind ∉ [.plus, .minus, .times, .divide]

lemma EndsAt.advances (hend : EndsAt tokens m e) (h : Ahead tokens m i ts)
    {x : Option (Except ParseError α × ℕ)} {y : Reading α} (hagrees : Agrees tokens m x y)
    (hleaves : Parser.Leaves e.position ts y)
    (hfewer : ∀ a rest, y = .ok (a, rest) → rest.length < ts.length) : Advances tokens i x := by
  have hm : m < tokens.length := (List.getElem?_eq_some_iff.mp hend.token).1
  have hindex := h.index
  cases hagrees with
  | value ahead =>
    have hlt := hfewer _ _ rfl
    have hrest := ahead.index
    exact .value (by omega) (by omega)
  | @error err j rest ahead =>
    cases hleaves with
    | error stops =>
      cases stops with
      | before left place other =>
        have hlength := left.length_le
        have hrest := ahead.index
        cases rest with
        | nil =>
          obtain rfl := ahead.eq_of_nil
          exact .error h.le hend.token place other
        | cons u rest => exact .error (by omega) ahead.getElem? place other
      | @behind t rest cause left numeral =>
        have hpassed := h.of_suffix left
        have hlength := left.length_le
        have hpassed' := hpassed.index
        have hrest := ahead.index
        simp only [List.length_cons] at hlength hpassed'
        obtain rfl : j = m - (rest.length + 1) + 1 := by omega
        exact .numeral (by omega) hpassed.getElem? rfl numeral (by omega)

lemma EndsAt.atNoOperator (hend : EndsAt tokens m e) (h : Ahead tokens m j rest)
    (hhalts : Halts 2 rest) : AtNoOperator tokens j := by
  cases rest with
  | nil =>
    obtain rfl := h.eq_of_nil
    exact ⟨e, hend.token, by simp [hend.kind]⟩
  | cons t rest =>
    have hne : ∀ op : Operator, t.kind ≠ op.tokenKind := by
      intro op hop
      have hrank := Halts.cons_iff.mp hhalts op hop
      cases op <;> simp [Operator.level, Level.rank] at hrank
    refine ⟨t, h.getElem?, ?_⟩
    simp only [List.mem_cons, List.not_mem_nil, or_false, not_or]
    exact ⟨hne .plus, hne .minus, hne .times, hne .divide⟩

/-! ## The walks -/

lemma Agrees.eq_indexed {x : Option (Except ParseError α × ℕ)} {y : Reading α}
    (h : Agrees tokens m x y) : x = some (Reading.indexed m y) := by
  cases h with
  | value ahead | error ahead => rw [Reading.indexed, ← ahead.eq_sub]

/-- From a token on a walk follows a function of the parser: it gives what the function gives for
the tokens up to the next end marker, it advances, and in the tree that it builds no left operand is
the result of a sign. -/
structure Follows (tokens : List Token) (i : ℕ) (x : Walk α)
    (f : Position → (ts : List Token) → Parsed α ts.length) (tree : α → Expr) : Prop where
  reads : x.result i = some (Reading.indexed (i + (Parser.ofIndex tokens i).ahead.length)
    (f (Parser.ofIndex tokens i).stop (Parser.ofIndex tokens i).ahead).reading)
  advances : Advances tokens i (x.result i)
  signs : ∀ a j, x.result i = some (.ok a, j) → (tree a).NoSignLeft

lemma Agrees.of_value {a : α} {y : Reading α} (h : Agrees tokens m (some (.ok a, j)) y) :
    ∃ rest, y = .ok (a, rest) ∧ Ahead tokens m j rest := by
  cases h with
  | value ahead => exact ⟨_, rfl, ahead⟩

/-- A factor that begins with a sign is the result of the sign, and its operand is an expression. -/
lemma factor_of_sign {stop : Position} {t : Token} {x : Expr}
    (hsign : t.kind = .plus ∨ t.kind = .minus)
    (h : (Parser.factor stop (t :: ts)).reading = .ok (x, rest)) :
    ∃ op y, x = .unary op y ∧ (Parser.expr stop ts).reading = .ok (y, rest) := by
  cases Parser.factor_eq_ok_iff.mp h with
  | int kind | float kind | group kind => simp [kind] at hsign
  | sign _ operand => exact ⟨_, _, rfl, operand⟩

section follows

variable {n : ℕ} (hend : EndsAt tokens m e)
  (hstop : (Parser.ofIndex tokens i).stop = e.position)
  (hahead : Ahead tokens m i (Parser.ofIndex tokens i).ahead) (hdepth : 6 * tokens.length ≤ n)

/-- The depth is enough for the tokens ahead and for one more. -/
lemma EndsAt.depth_of_length (hend : EndsAt tokens m e) (hahead : Ahead tokens m i ts)
    (hdepth : 6 * tokens.length ≤ n) : 6 * ts.length + 5 < n := by
  have hm : m < tokens.length := (List.getElem?_eq_some_iff.mp hend.token).1
  have hindex := hahead.index
  omega

include hend hstop hahead

lemma EndsAt.follows {x : Walk α} {f : Position → (ts : List Token) → Parsed α ts.length}
    {tree : α → Expr}
    (hagrees : Agrees tokens m (x.result i) (f e.position (Parser.ofIndex tokens i).ahead).reading)
    (hleaves : Parser.Leaves e.position (Parser.ofIndex tokens i).ahead
      (f e.position (Parser.ofIndex tokens i).ahead).reading)
    (htree : ∀ a rest, (f e.position (Parser.ofIndex tokens i).ahead).reading = .ok (a, rest) →
      (tree a).Canonical) : Follows tokens i x f tree where
  reads := by
    rw [hahead.index, hstop]
    exact hagrees.eq_indexed
  advances := hend.advances hahead hagrees hleaves fun _ _ => Parsed.length_lt
  signs a j hx := by
    rw [hx] at hagrees
    obtain ⟨rest, hread, -⟩ := hagrees.of_value
    exact (htree a rest hread).noSignLeft

include hdepth

lemma EndsAt.chain_follows (level : Level) :
    Follows tokens i (chain tokens level n) (Parser.chain level) id := by
  have henough := hend.depth_of_length hahead hdepth
  have hrank : level.rank ≤ 1 := by cases level <;> simp [Level.rank]
  refine hend.follows hstop hahead ((hend.agreesTo n).chain hahead (by omega))
    (Parser.operand_chain_leaves level _).2 fun x rest hread => ?_
  exact ((Parser.chain_eq_ok_iff_isRead (Parser.readsOperands level _ _)).mp hread).canonical

lemma EndsAt.factor_follows : Follows tokens i (factor tokens n) Parser.factor id := by
  have henough := hend.depth_of_length hahead hdepth
  refine hend.follows hstop hahead ((hend.agreesTo n).factor hahead (by omega))
    (Parser.factor_leaves fun us _ => Parser.expr_leaves us) fun x rest hread => ?_
  rw [← Parser.operand_product_reading] at hread
  have hshorter := Nat.lt_succ_self (Parser.ofIndex tokens i).ahead.length
  exact ((Parser.readsOperands .product e.position _ _ hshorter x rest).mp hread).canonical

lemma EndsAt.statement_follows :
    Follows tokens i (statement tokens n) Parser.statement Stmt.expr := by
  have henough := hend.depth_of_length hahead hdepth
  refine hend.follows hstop hahead (hend.statement_agrees hahead (by omega))
    (Parser.statement_leaves _) fun s rest hread => ?_
  obtain ⟨_, _, x, _, _, _, hcanonical, _, _, rfl⟩ := Parser.statement_eq_ok_iff_yields.mp hread
  exact hcanonical

omit hstop

/-- Where an expression ends no operator follows. -/
lemma EndsAt.atNoOperator_of_chain {x : Expr}
    (hx : (chain tokens .sum n).result i = some (.ok x, j)) : AtNoOperator tokens j := by
  have henough := hend.depth_of_length hahead hdepth
  have hagrees := (hend.agreesTo n).expr hahead (by omega)
  rw [hx] at hagrees
  obtain ⟨rest, hread, hrest⟩ := hagrees.of_value
  exact hend.atNoOperator hrest (Parser.expr_eq_ok_iff.mp hread).halts

/-- Nor does one where the operand of a sign ends. -/
lemma EndsAt.atNoOperator_of_sign {t : Token} {x : Expr} (ht : tokens[i]? = some t)
    (hsign : t.kind = .plus ∨ t.kind = .minus)
    (hx : (factor tokens n).result i = some (.ok x, j)) :
    (∃ op y, x = .unary op y) ∧ AtNoOperator tokens j := by
  have henough := hend.depth_of_length hahead hdepth
  have hagrees := (hend.agreesTo n).factor hahead (by omega)
  rw [hx] at hagrees
  obtain ⟨rest, hread, hrest⟩ := hagrees.of_value
  generalize (Parser.ofIndex tokens i).ahead = ts at hahead hread
  cases ts with
  | nil =>
    obtain rfl := hahead.eq_of_nil
    obtain rfl := Option.some.inj (hend.token.symm.trans ht)
    simp [hend.kind] at hsign
  | cons u us =>
    obtain rfl := Option.some.inj (hahead.getElem?.symm.trans ht)
    obtain ⟨op, y, rfl, hoperand⟩ := factor_of_sign hsign hread
    exact ⟨⟨op, y, rfl⟩, hend.atNoOperator hrest (Parser.expr_eq_ok_iff.mp hoperand).halts⟩

end follows

/-- **Walks advance.**  Let a token list have an end marker behind its last token, unless the last
token is one, and let the depth be at least six times the number of tokens.  From each of the tokens
on, whichever it is,

* a walk over a factor, over the operands and operators of a level and over a statement has a
  result, which is that of the parser for the tokens up to the next end marker;
* it leaves the index of a token.  Behind a value this is a later one, and with an error it is that
  of the token whose place the error has, or of the one behind it if this is a numeral that is not
  that of a number;
* behind an expression no operator follows, and neither does one behind a factor that begins with a
  sign;
* so no left operand in what has been read is the result of a sign. -/
theorem walks_advance (ts : List Token) {i n : ℕ} (hi : i < (terminated ts).length)
    (hn : 6 * (terminated ts).length ≤ n) :
    Follows (terminated ts) i (factor (terminated ts) n) Parser.factor id ∧
      (∀ level, Follows (terminated ts) i (chain (terminated ts) level n) (Parser.chain level) id) ∧
      Follows (terminated ts) i (statement (terminated ts) n) Parser.statement Stmt.expr ∧
      (∀ x j, (chain (terminated ts) .sum n).result i = some (.ok x, j) →
        AtNoOperator (terminated ts) j) ∧
      ∀ t x j, (terminated ts)[i]? = some t → t.kind = .plus ∨ t.kind = .minus →
        (factor (terminated ts) n).result i = some (.ok x, j) →
        (∃ op y, x = .unary op y) ∧ AtNoOperator (terminated ts) j := by
  obtain ⟨m, e, hend, hstop, hahead⟩ := exists_ahead (getLast?_terminated ts) hi
  exact ⟨hend.factor_follows hstop hahead hn, hend.chain_follows hstop hahead hn,
    hend.statement_follows hstop hahead hn, fun x j => hend.atNoOperator_of_chain hahead hn,
    fun t x j => hend.atNoOperator_of_sign hahead hn⟩

/-- In `- 1 * 2 ;` the sign takes the product, and the semicolon comes next. -/
theorem walks_advance_product :
    let ts : List Token := [⟨.minus, "-", ⟨1, 1⟩⟩, ⟨.integer, "1", ⟨1, 3⟩⟩, ⟨.times, "*", ⟨1, 5⟩⟩,
      ⟨.integer, "2", ⟨1, 7⟩⟩, ⟨.semi, ";", ⟨1, 9⟩⟩]
    0 < (terminated ts).length ∧ 6 * (terminated ts).length ≤ 36 ∧
      (factor (terminated ts) 36).result 0 = some (.ok (.unary .minus
        (.binary .times (.int 1 ⟨1, 3⟩) (.int 2 ⟨1, 7⟩) ⟨1, 5⟩)), 4) ∧
      AtNoOperator (terminated ts) 4 := by
  intro ts
  have hi : 0 < (terminated ts).length := by decide
  have hn : 6 * (terminated ts).length ≤ 36 := by decide
  have hresult : (factor (terminated ts) 36).result 0 = some (.ok (.unary .minus
      (.binary .times (.int 1 ⟨1, 3⟩) (.int 2 ⟨1, 7⟩) ⟨1, 5⟩)), 4) := rfl
  obtain ⟨-, -, -, -, hsign⟩ := walks_advance ts hi hn
  exact ⟨hi, hn, hresult, (hsign _ _ _ rfl (.inr rfl) hresult).2⟩

end Walk

end Reckon
