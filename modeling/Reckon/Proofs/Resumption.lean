/-
# Reading again after an error

A parser can be read from again, also after an error, and goes on with the tokens that had not been
read.  What they are depends on the error: the token that is wrong is read again, except that a
numeral that is not that of a number has been passed.  Whatever happens, none of the functions of
the parser goes back, and none goes past the end of the input.

So each reading leaves fewer tokens than there were, or it leaves the parser as it was, and then all
further readings do.  After as many readings as there are tokens nothing changes any more,
`Parser.next_after`, and the answers repeat, `Parser.getElem?_take_of_le`.
-/
import Mathlib.Logic.Function.Iterate
import Reckon.Proofs.Hopeless

namespace Reckon

/-- The cause is a numeral that is not that of a number. -/
def ParseError.Cause.IsNumeral : ParseError.Cause → Prop
  | invalidInteger _ | invalidFloat _ => True
  | _ => False

namespace Parser

/-! ## Where reading stops -/

/-- Where an error stops the reading of `ts`: `rest` is what had not been read. -/
inductive StopsAt (stop : Position) (ts : List Token) : ParseError → List Token → Prop where
  /-- The error is at the next token, or at the end of the input. -/
  | before {err : ParseError} {rest : List Token} (left : rest <:+ ts)
      (place : err.position = (rest.head?.map Token.position).getD stop)
      (other : ¬ err.cause.IsNumeral) : StopsAt stop ts err rest
  /-- The error is that of a numeral, and the next token is the one behind it. -/
  | behind {t : Token} {rest : List Token} {cause : ParseError.Cause} (left : t :: rest <:+ ts)
      (numeral : cause = .invalidInteger t.lexeme ∨ cause = .invalidFloat t.lexeme) :
      StopsAt stop ts ⟨cause, t.position⟩ rest

/-- What a function of the parser leaves of `ts`, with a value and with an error. -/
inductive Leaves {α : Type} (stop : Position) (ts : List Token) : Reading α → Prop where
  | value {a : α} {rest : List Token} (left : rest <:+ ts) : Leaves stop ts (.ok (a, rest))
  | error {err : ParseError} {rest : List Token} (stops : StopsAt stop ts err rest) :
      Leaves stop ts (.error (err, rest))

variable {stop : Position} {ts us rest : List Token} {err : ParseError}

lemma StopsAt.left (h : StopsAt stop ts err rest) : rest <:+ ts := by
  cases h with
  | before left _ _ => exact left
  | behind left _ => exact (List.suffix_cons _ rest).trans left

lemma StopsAt.mono (h : StopsAt stop us err rest) (hus : us <:+ ts) : StopsAt stop ts err rest := by
  cases h with
  | before left place other => exact .before (left.trans hus) place other
  | behind left numeral => exact .behind (left.trans hus) numeral

section readings

variable {α β : Type}

lemma Leaves.mono {x : Reading α} (h : Leaves stop us x) (hus : us <:+ ts) : Leaves stop ts x := by
  cases h with
  | value left => exact .value (left.trans hus)
  | error stops => exact .error (stops.mono hus)

/-- What is read behind a value leaves some of what the value has left. -/
lemma Leaves.andThen {x : Reading α} {f : α → List Token → Reading β} (h : Leaves stop ts x)
    (hf : ∀ a rest, x = .ok (a, rest) → Leaves stop rest (f a rest)) :
    Leaves stop ts (x.andThen f) := by
  cases h with
  | value left => exact (hf _ _ rfl).mono left
  | error stops => exact .error stops

end readings

/-! ## The functions of the parser -/

lemma expect_leaves (kind : TokenKind) (ts : List Token) :
    Leaves stop ts (expect kind stop ts).reading := by
  cases ts with
  | nil => exact .error (.before (List.suffix_refl _) rfl id)
  | cons t ts =>
    by_cases hkind : t.kind = kind
    · rw [expect_cons stop ts hkind]
      exact .value (List.suffix_cons t ts)
    · rw [expect_of_ne stop ts hkind]
      exact .error (.before (List.suffix_refl _) rfl id)

/-- A factor goes no further back than the expressions that begin later. -/
lemma factor_leaves
    (hexprs : ∀ us : List Token, us.length < ts.length →
      Leaves stop us (chain .sum stop us).reading) :
    Leaves stop ts (factor stop ts).reading := by
  cases ts with
  | nil =>
    rw [factor.eq_def]
    exact .error (.before (List.suffix_refl _) rfl id)
  | cons t ts =>
    have htail : ts <:+ t :: ts := List.suffix_cons t ts
    have hexpr := hexprs ts (Nat.lt_succ_self _)
    rcases opening t with hkind | hkind | ⟨op, hkind⟩ | hkind | hfails
    · rw [factor_integer_reading ts hkind]
      cases Numeral.int32? t.lexeme.toList with
      | some n => exact .value htail
      | none =>
        -- the numeral is passed before its value is looked for
        exact .error (.behind (List.suffix_refl _) (.inl rfl))
    · rw [factor_float_reading ts hkind]
      cases Numeral.float32? t.lexeme.toList with
      | some x => exact .value htail
      | none => exact .error (.behind (List.suffix_refl _) (.inr rfl))
    · rw [factor_sign_reading ts hkind]
      exact (hexpr.andThen fun e rest _ => .value (List.suffix_refl _)).mono htail
    · rw [factor_group_reading ts hkind]
      refine (hexpr.andThen fun e after _ => ?_).mono htail
      exact (expect_leaves .rparen after).andThen fun u rest _ => .value (List.suffix_refl _)
    · rw [hfails t stop ts rfl]
      exact .error (.before (List.suffix_refl _) rfl id)

/-- The operators of a level go no further back than the operands. -/
lemma readMore_leaves {level : Level}
    (hoperands : ∀ us : List Token, us.length ≤ ts.length →
      Leaves stop us (operand level stop us).reading) (left : Expr) :
    Leaves stop ts (readMore level stop left ts) := by
  induction left, ts using readMore_induction level stop with
  | nil left =>
    rw [readMore_nil]
    exact .value (List.suffix_refl _)
  | done left t ts hop =>
    rw [readMore_of_none hop]
    exact .value (List.suffix_refl _)
  | operator left t ts op hop ih =>
    have htail : ts <:+ t :: ts := List.suffix_cons t ts
    rw [readMore_of_some left ts hop]
    refine ((hoperands ts htail.length_le).andThen fun right after hright => ?_).mono htail
    have hlt : after.length < (t :: ts).length := Nat.lt_succ_of_lt (Parsed.length_lt hright)
    exact ih right after hright fun us hus => hoperands us (by omega)

lemma chain_leaves {level : Level}
    (hoperands : ∀ us : List Token, us.length ≤ ts.length →
      Leaves stop us (operand level stop us).reading) :
    Leaves stop ts (chain level stop ts).reading := by
  rw [chain_reading]
  refine (hoperands ts (Nat.le_refl _)).andThen fun left after hleft => ?_
  have hlt : after.length < ts.length := Parsed.length_lt hleft
  exact readMore_leaves (fun us hus => hoperands us (by omega)) left

lemma operand_chain_leaves (level : Level) (ts : List Token) :
    Leaves stop ts (operand level stop ts).reading ∧
      Leaves stop ts (chain level stop ts).reading := by
  refine induction_on (fun level us => Leaves stop us (operand level stop us).reading)
    (fun level us => Leaves stop us (chain level stop us).reading)
    ?_ ?_ (fun level us => chain_leaves) level ts
  · intro us hexprs
    rw [operand_product_reading]
    exact factor_leaves hexprs
  · intro us hus
    rw [operand_sum_reading]
    exact hus

lemma expr_leaves (ts : List Token) : Leaves stop ts (expr stop ts).reading :=
  (operand_chain_leaves .sum ts).2

lemma statement_leaves (ts : List Token) : Leaves stop ts (statement stop ts).reading := by
  rw [statement_reading]
  refine (expect_leaves .print ts).andThen fun t us _ => ?_
  refine (expr_leaves us).andThen fun e after _ => ?_
  exact (expect_leaves .semi after).andThen fun u rest _ => .value (List.suffix_refl _)

/-- Statements are read up to the end of the input, or up to where an error stops them. -/
lemma statements_cases (stop : Position) (found : List Stmt) (ts : List Token) :
    (∃ p, statements stop found ts = (.ok p, [])) ∨
      ∃ err rest, statements stop found ts = (.error err, rest) ∧ StopsAt stop ts err rest := by
  induction found, ts using statements_induction stop with
  | nil found => exact .inl ⟨_, statements_nil found⟩
  | comment found t ts hcomment ih =>
    rw [statements_comment found ts hcomment]
    refine ih.imp_right ?_
    rintro ⟨err, rest, heq, hstops⟩
    exact ⟨err, rest, heq, hstops.mono (List.suffix_cons t ts)⟩
  | failed found t ts err rest hcomment hread =>
    have hleaves : Leaves stop (t :: ts) (statement stop (t :: ts)).reading :=
      statement_leaves (t :: ts)
    rw [hread] at hleaves
    cases hleaves with
    | error stops => exact .inr ⟨err, rest, statements_of_error hcomment hread, stops⟩
  | read found t ts s after hcomment hread ih =>
    have hleaves : Leaves stop (t :: ts) (statement stop (t :: ts)).reading :=
      statement_leaves (t :: ts)
    rw [hread] at hleaves
    cases hleaves with
    | value left =>
      rw [statements_of_ok hcomment hread]
      refine ih.imp_right ?_
      rintro ⟨err, rest, heq, hstops⟩
      exact ⟨err, rest, heq, hstops.mono left⟩

/-! ## One reading -/

/-- **What one reading does.**  It ends at the end of the input with a program, or an error stops it
somewhere before. -/
theorem next_cases (p : Parser) :
    (∃ program, p.next = (.ok program, ⟨[], p.stop⟩)) ∨
      ∃ err rest, p.next = (.error err, ⟨rest, p.stop⟩) ∧ StopsAt p.stop p.ahead err rest := by
  refine (statements_cases p.stop [] p.ahead).imp ?_ ?_
  · rintro ⟨program, heq⟩
    exact ⟨program, by rw [next, heq]⟩
  · rintro ⟨err, rest, heq, hstops⟩
    exact ⟨err, rest, by rw [next, heq], hstops⟩

lemma next_nil (stop : Position) : next ⟨[], stop⟩ = (.ok ⟨[]⟩, ⟨[], stop⟩) := by
  simp [next]

/-- A reading with a result leaves no tokens. -/
lemma next_of_ok {p : Parser} {program : Program} (h : p.next.1 = .ok program) :
    p.next.2 = ⟨[], p.stop⟩ := by
  rcases next_cases p with ⟨program', heq⟩ | ⟨err, rest, heq, -⟩
  · rw [heq]
  · rw [heq] at h
    exact absurd h (by simp)

/-- No reading goes back. -/
theorem ahead_next (p : Parser) : p.next.2.ahead <:+ p.ahead := by
  rcases next_cases p with ⟨program, heq⟩ | ⟨err, rest, heq, hstops⟩
  · rw [heq]
    exact List.nil_suffix
  · rw [heq]
    exact hstops.left

lemma stop_next (p : Parser) : p.next.2.stop = p.stop := rfl

/-- A reading leaves the parser as it was, or fewer tokens. -/
lemma next_progress (p : Parser) : p.next.2 = p ∨ p.next.2.ahead.length < p.ahead.length := by
  rcases Nat.lt_or_ge p.next.2.ahead.length p.ahead.length with hlt | hge
  · exact .inr hlt
  · have hahead : p.next.2.ahead = p.ahead := (ahead_next p).eq_of_length_le hge
    exact .inl (congrArg₂ Parser.mk hahead (stop_next p))

/-- If an error leaves the parser as it was, the error is at the next token. -/
theorem position_of_next_eq {p : Parser} (h : p.next.2 = p) (herr : p.next.1 = .error err) :
    err.position = (p.ahead.head?.map Token.position).getD p.stop := by
  rcases next_cases p with ⟨program, heq⟩ | ⟨err', rest, heq, hstops⟩
  · rw [heq] at herr
    exact absurd herr (by simp)
  · rw [heq] at h herr
    obtain rfl := Except.error.inj herr
    obtain rfl : rest = p.ahead := congrArg Parser.ahead h
    cases hstops with
    | before _ place _ => exact place
    | behind left _ =>
      -- a numeral that has been passed is no longer ahead
      exact absurd left.length_le (by simp)

/-! ## Readings in a row -/

/-- The parser after `n` readings. -/
def after (n : ℕ) (p : Parser) : Parser := (fun q => q.next.2)^[n] p

@[simp] lemma length_take (n : ℕ) (p : Parser) : (p.take n).length = n := by
  induction n generalizing p with
  | zero => rfl
  | succ n ih => simp [take, ih]

/-- The answers are those of the parsers that the readings before have left. -/
lemma getElem?_take {n i : ℕ} (h : i < n) (p : Parser) :
    (p.take n)[i]? = some (p.after i).next.1 := by
  induction n generalizing i p with
  | zero => exact absurd h (Nat.not_lt_zero i)
  | succ n ih =>
    cases i with
    | zero => rfl
    | succ i => exact ih (Nat.lt_of_succ_lt_succ h) p.next.2

/-- Once a reading leaves the parser as it is, all do. -/
lemma after_add {m : ℕ} {p : Parser} (h : (p.after m).next.2 = p.after m) (k : ℕ) :
    p.after (k + m) = p.after m := by
  rw [after, Function.iterate_add_apply]
  exact Function.iterate_fixed h k

/-- **Reading settles.**  After as many readings as there are tokens, no reading changes the
parser. -/
theorem next_after {n : ℕ} {p : Parser} (h : p.ahead.length ≤ n) :
    (p.after n).next.2 = p.after n := by
  -- each reading takes a token away, until one changes nothing
  induction n generalizing p with
  | zero =>
    obtain ⟨ahead, stop⟩ := p
    obtain rfl : ahead = [] := List.eq_nil_of_length_eq_zero (Nat.le_zero.mp h)
    exact congrArg Prod.snd (next_nil stop)
  | succ n ih =>
    rcases next_progress p with hsame | hfewer
    · have hfixed : p.after (n + 1) = p := Function.iterate_fixed hsame (n + 1)
      rw [hfixed, hsame]
    · have hn : p.next.2.ahead.length ≤ n := by omega
      exact ih hn

/-- Behind a result there are only empty programs. -/
lemma next_after_of_ok {i j : ℕ} {p : Parser} {program : Program} (hij : i < j)
    (h : (p.after i).next.1 = .ok program) : (p.after j).next.1 = .ok ⟨[]⟩ := by
  have hend : p.after (i + 1) = ⟨[], (p.after i).stop⟩ := by
    rw [after, Function.iterate_succ_apply']
    exact next_of_ok h
  have hfixed : (p.after (i + 1)).next.2 = p.after (i + 1) := by
    rw [hend, next_nil]
  obtain ⟨k, rfl⟩ := Nat.exists_eq_add_of_le' hij
  rw [after_add hfixed, hend, next_nil]

/-- Behind a program all answers are empty programs. -/
lemma getElem?_take_of_ok {n i j : ℕ} {p : Parser} {program : Program}
    (hi : (p.take n)[i]? = some (.ok program)) (hij : i < j) (hj : j < n) :
    (p.take n)[j]? = some (.ok ⟨[]⟩) := by
  rw [getElem?_take (hij.trans hj)] at hi
  rw [getElem?_take hj, next_after_of_ok hij (Option.some.inj hi)]

/-- Behind as many answers as there are tokens ahead they are all the same. -/
lemma getElem?_take_of_le {n m i : ℕ} {p : Parser} (hm : p.ahead.length ≤ m) (hle : m ≤ i)
    (hi : i < n) : (p.take n)[i]? = (p.take n)[m]? := by
  have hsettled := next_after hm
  obtain ⟨k, rfl⟩ := Nat.exists_eq_add_of_le' hle
  rw [getElem?_take hi, getElem?_take (hle.trans_lt hi), after_add hsettled]

/-! ## The parser of a token list -/

/-- The parser of a token list is given by the tokens up to the first end marker. -/
lemma ofTokens_congr (h : throughEnd us = throughEnd ts) : ofTokens us = ofTokens ts := by
  obtain ⟨e, -, hposition, hthrough⟩ := exists_throughEnd ts
  obtain ⟨e', -, hposition', hthrough'⟩ := exists_throughEnd us
  rw [hthrough, hthrough'] at h
  obtain ⟨hahead, he⟩ := List.append_inj' h rfl
  obtain rfl : e' = e := List.singleton_inj.mp he
  exact congrArg₂ Parser.mk hahead (hposition'.symm.trans hposition)

/-- The tokens before the first end marker are ahead. -/
lemma length_ahead (ts : List Token) :
    (ofTokens ts).ahead.length = ts.findIdx (·.kind = .eof) := by
  simp [ofTokens, List.takeWhile_eq_take_findIdx_not, List.findIdx_le_length]

end Parser

end Reckon
