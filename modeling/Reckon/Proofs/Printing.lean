/-
# Programs that print one numeral

A numeral is any text of digits and points.  Here the program that prints it is followed through all
stages, with and without a minus sign in front of it.  The lexer takes all of it for one token, of
the one kind or the other by whether it has a point.  The parser asks whether the token is that of
a number: without a point it is if the number fits into 32 bits, with points if there is only one
and a digit besides.  The number is then printed, or the parser fails at the numeral.

The sign is not part of the numeral, so that the least 32-bit integer cannot be written as one.
-/
import Reckon.Proofs.Hopeless
import Reckon.Proofs.Integers
import Reckon.Proofs.Layout
import Reckon.Proofs.Roundtrip
import Reckon.Proofs.Spacing
import Reckon.Proofs.Symbols

namespace Reckon

/-- A source text is executed and prints a line, on every sink that takes the line. -/
def Prints (source line : String) : Prop :=
  ∀ (file : String) (sink taken : Sink), sink.write (line ++ "\n") = (.ok (), taken) →
    run file source sink = (.ok .executed, taken)

/-- A source text is not a program, and nothing is written. -/
def FailsToParse (source : String) (err : ParseError) : Prop :=
  ∀ (file : String) (sink : Sink), run file source sink = (.error (.parse err), sink)

/-! ## The number of a numeral -/

namespace Numeral

lemma ne_sign_of_isPointOrDigit {c : Char} (h : isPointOrDigit c = true) : c ≠ '-' ∧ c ≠ '+' := by
  rcases isPointOrDigit_iff.mp h with hdigit | rfl
  · exact ne_of_isDigit hdigit
  · decide

/-- Digits are read as a 32-bit integer if their number is in range. -/
lemma int32?_digits {cs : List Char} (hne : cs ≠ []) (hcs : ∀ c ∈ cs, c.isDigit = true) :
    int32? cs =
      if Nat.ofDigitChars 10 cs 0 < 0x80000000 then some (.ofInt (Nat.ofDigitChars 10 cs 0 : ℕ))
      else none := by
  obtain ⟨c, us, rfl⟩ := List.exists_cons_of_ne_nil hne
  have hunsign : unsign (c :: us) = (false, c :: us) := by
    simpa using unsign_sign (ne_of_isDigit (hcs c List.mem_cons_self)) False us
  have hnatural : natural? (c :: us) = some (Nat.ofDigitChars 10 (c :: us) 0) :=
    if_pos ⟨hne, List.all_eq_true.mpr hcs⟩
  have hinteger : integer? (c :: us) = some (Nat.ofDigitChars 10 (c :: us) 0 : ℤ) := by
    simp [integer?, hunsign, hnatural]
  have hrange (n : ℕ) : (-0x80000000 ≤ (n : ℤ) ∧ (n : ℤ) < 0x80000000) ↔ n < 0x80000000 := by
    omega
  rw [int32?, hinteger, Option.bind_some]
  by_cases hv : Nat.ofDigitChars 10 (c :: us) 0 < 0x80000000
  · rw [if_pos ((hrange _).mpr hv), if_pos hv]
  · rw [if_neg (mt (hrange _).mp hv), if_neg hv]

/-- Points and digits are read as a binary32 number if they are a decimal. -/
lemma float32?_numeral {cs : List Char} (hne : cs ≠ [])
    (hcs : ∀ c ∈ cs, isPointOrDigit c = true) :
    float32? cs = (decimal? cs).map fun d => Single.ofRank false (Single.ofDecimal d) := by
  obtain ⟨c, us, rfl⟩ := List.exists_cons_of_ne_nil hne
  have hc := hcs c List.mem_cons_self
  have hunsign : unsign (c :: us) = (false, c :: us) := by
    simpa using unsign_sign (ne_sign_of_isPointOrDigit hc) False us
  rcases isPointOrDigit_iff.mp hc with hdigit | rfl
  · exact FloatStyle.float32?_decimal hunsign hdigit
  · -- none of the names begins with a point
    have hname {name : String} (h : name.toList.head? ≠ some '.') :
        String.ofList (('.' :: us).map Char.toLower) ≠ name := by
      rintro rfl
      exact h (by simp)
    have hnames : ¬ (String.ofList (('.' :: us).map Char.toLower) = "inf" ∨
        String.ofList (('.' :: us).map Char.toLower) = "infinity") :=
      not_or.mpr ⟨hname (by decide), hname (by decide)⟩
    have hnan : String.ofList (('.' :: us).map Char.toLower) ≠ "nan" := hname (by decide)
    simp only [float32?, hunsign, if_neg hnames, if_neg hnan]

/-- Points and digits with a point are a decimal just if there is only one point and a digit
besides. -/
lemma isSome_decimal?_iff {cs : List Char} (hcs : ∀ c ∈ cs, isPointOrDigit c = true)
    (hpoint : '.' ∈ cs) :
    (decimal? cs).isSome ↔ cs.count '.' = 1 ∧ ∃ c ∈ cs, c.isDigit = true := by
  -- the digits up to the first point, those up to the next one, and what follows
  obtain ⟨ds, tail, rfl, hds⟩ := exists_isRun Char.isDigit cs
  obtain ⟨after, rfl⟩ : ∃ after, tail = '.' :: after := by
    cases tail with
    | nil =>
      rw [List.append_nil] at hpoint
      exact absurd (hds.all '.' hpoint) (by decide)
    | cons c after =>
      have hc := hcs c (List.mem_append_right _ List.mem_cons_self)
      obtain rfl := (isPointOrDigit_iff.mp hc).resolve_left (by simp [hds.ends c rfl])
      exact ⟨after, rfl⟩
  obtain ⟨fs, rest, rfl, hfs⟩ := exists_isRun Char.isDigit after
  have hcount : (ds ++ '.' :: (fs ++ rest)).count '.' = rest.count '.' + 1 := by
    have hnone {xs : List Char} (hxs : ∀ c ∈ xs, c.isDigit = true) : xs.count '.' = 0 :=
      List.count_eq_zero.mpr fun hmem => absurd (hxs '.' hmem) (by decide)
    simp [hnone hds.all, hnone hfs.all]
  rw [decimal?_around_point hds.all hfs.all hfs.ends, hcount]
  cases rest with
  | nil =>
    by_cases hnil : ds = [] ∧ fs = []
    · obtain ⟨rfl, rfl⟩ := hnil
      rw [if_pos ⟨rfl, rfl⟩]
      refine iff_of_false (by simp) ?_
      rintro ⟨-, c, hc, hdigit⟩
      obtain rfl := List.mem_singleton.mp hc
      exact absurd hdigit (by decide)
    · obtain ⟨c, hc⟩ := List.exists_mem_of_ne_nil (ds ++ fs) (by simpa using hnil)
      have hdigit := (List.mem_append.mp hc).elim (hds.all c) (hfs.all c)
      have hmem : c ∈ ds ++ '.' :: (fs ++ []) := by
        rcases List.mem_append.mp hc with hc | hc <;> simp [hc]
      rw [if_neg hnil]
      exact iff_of_true rfl ⟨rfl, c, hmem, hdigit⟩
  | cons c rest =>
    have hc := hcs c (by simp)
    obtain rfl := (isPointOrDigit_iff.mp hc).resolve_left (by simp [hfs.ends c rfl])
    have hexponent : exponent? ('.' :: rest) = none := rfl
    simp [hexponent]

/-- The number that a text of points and digits is the numeral of. -/
def scalar? (cs : List Char) : Option Scalar :=
  if '.' ∈ cs then (float32? cs).map .float else (int32? cs).map .int

end Numeral

/-- What is wrong with a text of points and digits that is the numeral of no number. -/
def ParseError.Cause.ofNumeral (w : String) : Cause :=
  if '.' ∈ w.toList then .invalidFloat w else .invalidInteger w

/-! ## The tokens -/

/-- The kind of the token that a text of points and digits is. -/
def numeralKind (cs : List Char) : TokenKind := if '.' ∈ cs then .float else .integer

/-- In front of a semicolon a numeral has its point ahead just if it contains one. -/
lemma pointAhead_append_semi {cs : List Char} (hcs : ∀ c ∈ cs, isPointOrDigit c = true)
    (rest : List Char) : pointAhead (cs ++ ';' :: rest) = decide ('.' ∈ cs) := by
  induction cs with
  | nil => simp [pointAhead]
  | cons c cs ih =>
    obtain ⟨hc, hcs⟩ := List.forall_mem_cons.mp hcs
    rw [List.cons_append, pointAhead]
    by_cases hpoint : c = '.'
    · simp [hpoint]
    · have hstop : ¬ ((Text.isBlank c || c = ';') = true) := by
        intro hstop
        rcases Bool.or_eq_true_iff.mp hstop with hblank | hsemi
        · exact absurd (hc.symm.trans (isPointOrDigit_of_isBlank hblank)) (by decide)
        · obtain rfl := of_decide_eq_true hsemi
          exact absurd hc (by decide)
      rw [if_neg hpoint, if_neg hstop, ih hcs]
      simp [Ne.symm hpoint]

/-- In front of a semicolon a numeral is taken off whole. -/
lemma munch_numeral_semi {c : Char} {cs : List Char}
    (h : ∀ d ∈ c :: cs, isPointOrDigit d = true) (rest : List Char) :
    munch c (cs ++ ';' :: rest) = some (numeralKind (c :: cs), cs.length) := by
  obtain ⟨hc, hcs⟩ := List.forall_mem_cons.mp h
  have hahead := pointAhead_append_semi h rest
  rw [List.cons_append] at hahead
  rw [munch_numeral hc, hahead, numeralKind]
  by_cases hpoint : '.' ∈ c :: cs
  · have hsemi : ∀ d ∈ (';' :: rest).head?, isPointOrDigit d = false := by simp [isPointOrDigit]
    simp only [hpoint, decide_true, if_true, (run_append hcs hsemi).1]
  · have hdigits : ∀ d ∈ cs, d.isDigit = true := fun d hd =>
      (isPointOrDigit_iff.mp (hcs d hd)).resolve_right fun heq =>
        hpoint (heq ▸ List.mem_cons_of_mem c hd)
    have hsemi : ∀ d ∈ (';' :: rest).head?, d.isDigit = false := by simp
    simp only [hpoint, decide_false, Bool.false_eq_true, if_false, (run_append hdigits hsemi).1]

namespace Cuts

/-- A symbol is a token of its own, whatever follows, unless it is a slash. -/
lemma symbol {p : Position} {c : Char} {kind : TokenKind} {cs : List Char} {ts : List Token}
    (hc : symbol? c = some kind) (hslash : c ≠ '/') (h : Cuts (p.step c) cs ts) :
    Cuts p (c :: cs) (⟨kind, String.ofList [c], p⟩ :: ts) := by
  have hmunches : Munches c cs kind 0 := .symbol hc fun heq => absurd heq hslash
  exact .token hmunches.munch_eq h

/-- The tokens of a numeral and a semicolon. -/
lemma numeral {w : String} (hne : w ≠ "") (hw : ∀ c ∈ w.toList, isPointOrDigit c = true)
    (p : Position) :
    ∃ q, Cuts p (w.toList ++ [';'])
      ([⟨numeralKind w.toList, w, p⟩] ++ [⟨.semi, ";", q⟩, .endAt (q.step ';')]) := by
  obtain ⟨c, cs, hcs⟩ := List.exists_cons_of_ne_nil (mt String.toList_eq_nil_iff.mp hne)
  have hlexeme : String.ofList (c :: cs) = w := by rw [← hcs, String.ofList_toList]
  rw [hcs] at hw ⊢
  refine ⟨p.advance (c :: cs), ?_⟩
  have hsemi : Cuts (p.advance (c :: cs)) [';'] _ := symbol rfl (by decide) (.done _)
  have hcuts := token_append (munch_numeral_semi hw []) hsemi
  rwa [hlexeme] at hcuts

/-- The keyword and the blank behind it. -/
lemma print {cs : List Char} {ts : List Token} (h : Cuts ⟨1, 7⟩ cs ts) :
    Cuts .start ("print ".toList ++ cs) (⟨.print, "print", ⟨1, 1⟩⟩ :: ts) := by
  have hletters : ∀ c ∈ ['p', 'r', 'i', 'n', 't'], Text.isAlphabetic c = true :=
    List.all_eq_true.mp (by decide)
  have hrun : IsRun Text.isAlphabetic ['p', 'r', 'i', 'n', 't'] (' ' :: cs) :=
    isRun_blank (fun _ => isAlphabetic_of_isBlank) hletters (by decide)
  have hblank : Cuts ⟨1, 6⟩ (' ' :: cs) ts := .skip (munch_of_isBlank (by decide) cs) h
  have hmunch := (LexRule.munches_word hrun).munch_eq
  have hkind : wordKind ['p', 'r', 'i', 'n', 't'] = .print := rfl
  rw [hkind] at hmunch
  exact token_append hmunch hblank

end Cuts

/-! ## What is read and what is printed -/

/-- A numeral of a number is read as a literal, whose value it is. -/
lemma Numeral.exists_yields {w : String} {a : Scalar} (h : scalar? w.toList = some a)
    (p : Position) :
    ∃ e : Expr, e.Yields [⟨numeralKind w.toList, w, p⟩] ∧ e.Canonical ∧ e.typing.2 = [] ∧
      e.eval = .ok (.literal a) := by
  unfold scalar? at h
  unfold numeralKind
  split_ifs at h ⊢
  · obtain ⟨x, hx, rfl⟩ := Option.map_eq_some_iff.mp h
    let t : Token := ⟨.float, w, p⟩
    exact ⟨.float x p, .float (t := t) rfl hx, .float x p, rfl, rfl⟩
  · obtain ⟨n, hn, rfl⟩ := Option.map_eq_some_iff.mp h
    let t : Token := ⟨.integer, w, p⟩
    exact ⟨.int n p, .int (t := t) rfl hn, .int n p, rfl, rfl⟩

/-- At a numeral of no number reading fails. -/
lemma Numeral.expr_reading {w : String} (h : scalar? w.toList = none) (p stop : Position)
    (ts : List Token) :
    (Parser.expr stop (⟨numeralKind w.toList, w, p⟩ :: ts)).reading =
      .error (⟨.ofNumeral w, p⟩, ts) := by
  apply Parser.chain_sum_of_error
  unfold scalar? at h
  rw [ParseError.Cause.ofNumeral]
  split_ifs at h ⊢ with hpoint
  · rw [Parser.factor_float_reading ts (if_pos hpoint), Option.map_eq_none_iff.mp h]
  · rw [Parser.factor_integer_reading ts (if_neg hpoint), Option.map_eq_none_iff.mp h]

section Source

variable {w : String} {ts : List Token} {q r : Position}

/-- The tokens of a source text that prints an expression. -/
lemma tokenize_print (h : Cuts ⟨1, 7⟩ (w.toList ++ [';']) (ts ++ [⟨.semi, ";", q⟩, .endAt r])) :
    tokenize ("print " ++ w ++ ";") =
      ⟨.print, "print", ⟨1, 1⟩⟩ :: (ts ++ [⟨.semi, ";", q⟩, .endAt r]) := by
  have hsource : ("print " ++ w ++ ";").toList = "print ".toList ++ (w.toList ++ [';']) := by
    simp [String.toList_append]
  have hcuts := Cuts.print h
  rw [← hsource] at hcuts
  exact (Cuts.iff_eq_drain.mp hcuts).symm

/-- An expression that has a value and in which no kinds differ is printed. -/
lemma prints_of_yields {e : Expr} {v : Value}
    (h : Cuts ⟨1, 7⟩ (w.toList ++ [';']) (ts ++ [⟨.semi, ";", q⟩, .endAt r]))
    (hyields : e.Yields ts) (hcanonical : e.Canonical) (htyping : e.typing.2 = [])
    (hvalue : e.eval = .ok v) : Prints ("print " ++ w ++ ";") v.scalar.text := by
  intro file sink taken hwrite
  have hread := Program.ofSource_of_yields (tokenize_print h) rfl rfl hyields hcanonical
    hyields.kind_ne_eof
  have hclean : Program.kindErrors ⟨[.print e]⟩ = [] := by
    rw [Program.kindErrors_eq]
    simpa using htyping
  rw [run_eq_conclude hread hclean]
  simp [Program.execute, executeAll, Stmt.execute, hvalue, Sink.printLine, hwrite, conclude]

/-- If an expression cannot be read, the source text is not a program. -/
lemma failsToParse_of_reading {err : ParseError}
    (h : Cuts ⟨1, 7⟩ (w.toList ++ [';']) (ts ++ [⟨.semi, ";", q⟩, .endAt r]))
    (hts : ∀ t ∈ ts, t.kind ≠ .eof)
    (hread : ∀ stop us, (Parser.expr stop (ts ++ us)).reading = .error (err, us)) :
    FailsToParse ("print " ++ w ++ ";") err := by
  intro file sink
  let keyword : Token := ⟨.print, "print", ⟨1, 1⟩⟩
  let ahead := keyword :: (ts ++ [⟨.semi, ";", q⟩])
  have hahead : Parser.ofSource ("print " ++ w ++ ";") = ⟨ahead, r⟩ := by
    have hkinds : ∀ t ∈ ahead, t.kind ≠ .eof := by
      simpa [ahead, keyword, or_imp, forall_and] using hts
    have htokens : tokenize ("print " ++ w ++ ";") = ahead ++ [.endAt r] := by
      rw [tokenize_print h]
      simp [ahead, keyword]
    rw [Parser.ofSource, htokens, Parser.ofTokens_concat hkinds]
  have hstatement : (Parser.statement r ahead).reading = .error (err, [⟨.semi, ";", q⟩]) := by
    have hprint : (Parser.expect .print r ahead).reading = .ok (keyword, ts ++ _) :=
      Parser.expect_cons _ _ rfl
    rw [Parser.statement_reading, hprint, Reading.andThen_ok, hread, Reading.andThen_error]
  have hsource : Program.ofSource ("print " ++ w ++ ";") = .error err := by
    rw [Program.ofSource, hahead]
    exact congrArg Prod.fst (Parser.statements_of_error (by decide) hstatement)
  simp only [run, hsource]

end Source

/-- A minus sign belongs to what is printed. -/
lemma print_minus (w : String) : "print -" ++ w ++ ";" = "print " ++ ("-" ++ w) ++ ";" := by
  rw [← String.append_assoc]
  rfl

/-- The tokens of a numeral behind a minus sign. -/
lemma Cuts.minus_numeral {w : String} (hne : w ≠ "")
    (hw : ∀ c ∈ w.toList, isPointOrDigit c = true) :
    ∃ q, Cuts ⟨1, 7⟩ (("-" ++ w).toList ++ [';']) ([⟨.minus, "-", ⟨1, 7⟩⟩,
      ⟨numeralKind w.toList, w, ⟨1, 8⟩⟩] ++ [⟨.semi, ";", q⟩, .endAt (q.step ';')]) := by
  obtain ⟨q, hcuts⟩ := Cuts.numeral hne hw ⟨1, 8⟩
  have htext : ("-" ++ w).toList = '-' :: w.toList := by simp [String.toList_append]
  rw [htext]
  exact ⟨q, .symbol rfl (by decide) hcuts⟩

/-- The number of a numeral is printed, and behind a minus sign the number times minus one. -/
lemma prints_numeral {w : String} {a : Scalar} (hne : w ≠ "")
    (hw : ∀ c ∈ w.toList, isPointOrDigit c = true) (h : Numeral.scalar? w.toList = some a) :
    Prints ("print " ++ w ++ ";") a.text ∧ Prints ("print -" ++ w ++ ";") a.negate.text := by
  constructor
  · obtain ⟨q, hcuts⟩ := Cuts.numeral hne hw ⟨1, 7⟩
    obtain ⟨e, hyields, hcanonical, htyping, hvalue⟩ := Numeral.exists_yields h ⟨1, 7⟩
    have hprints := prints_of_yields hcuts hyields hcanonical htyping hvalue
    exact hprints
  · obtain ⟨q, hcuts⟩ := Cuts.minus_numeral hne hw
    obtain ⟨e, hyields, hcanonical, -, hvalue⟩ := Numeral.exists_yields h ⟨1, 8⟩
    have hsign : (Expr.unary .minus e).eval = .ok (.computed a.negate) := by
      rw [Expr.eval_unary hvalue]
      rfl
    have hprints :=
      prints_of_yields hcuts (.unary rfl hyields) (.unary (.inr rfl) hcanonical) rfl hsign
    rw [print_minus]
    exact hprints

/-- A numeral of no number is where parsing fails. -/
lemma failsToParse_numeral {w : String} (hne : w ≠ "")
    (hw : ∀ c ∈ w.toList, isPointOrDigit c = true) (h : Numeral.scalar? w.toList = none) :
    FailsToParse ("print " ++ w ++ ";") ⟨.ofNumeral w, ⟨1, 7⟩⟩ ∧
      FailsToParse ("print -" ++ w ++ ";") ⟨.ofNumeral w, ⟨1, 8⟩⟩ := by
  have hkind : numeralKind w.toList ≠ .eof := by
    unfold numeralKind
    split_ifs <;> decide
  constructor
  · obtain ⟨q, hcuts⟩ := Cuts.numeral hne hw ⟨1, 7⟩
    exact failsToParse_of_reading hcuts (by simpa using hkind) fun stop us =>
      Numeral.expr_reading h ⟨1, 7⟩ stop us
  · obtain ⟨q, hcuts⟩ := Cuts.minus_numeral hne hw
    rw [print_minus]
    refine failsToParse_of_reading hcuts (by simpa using hkind) fun stop us => ?_
    apply Parser.chain_sum_of_error
    rw [List.cons_append, List.singleton_append, Parser.factor_sign_reading _ rfl]
    exact congrArg (Reading.andThen · _) (Numeral.expr_reading h ⟨1, 8⟩ stop us)

/-- Digits whose number is in range are the numeral of an integer. -/
lemma prints_digits {w : String} (hne : w ≠ "") (hw : ∀ c ∈ w.toList, c.isDigit = true)
    (hle : Nat.ofDigitChars 10 w.toList 0 ≤ 2147483647) :
    Prints ("print " ++ w ++ ";") (toString (Nat.ofDigitChars 10 w.toList 0)) ∧
      Prints ("print -" ++ w ++ ";") (toString (-(Nat.ofDigitChars 10 w.toList 0 : ℤ))) := by
  have hpoint : '.' ∉ w.toList := fun hmem => absurd (hw '.' hmem) (by decide)
  have hread := Numeral.int32?_digits (mt String.toList_eq_nil_iff.mp hne) hw
  rw [if_pos (by omega)] at hread
  have hscalar : Numeral.scalar? w.toList =
      some (.int (.ofInt (Nat.ofDigitChars 10 w.toList 0 : ℕ))) := by
    rw [Numeral.scalar?, if_neg hpoint, hread, Option.map_some]
  have hprints :=
    prints_numeral hne (fun c hc => isPointOrDigit_iff.mpr (.inl (hw c hc))) hscalar
  generalize Nat.ofDigitChars 10 w.toList 0 = n at *
  have htext (z : ℤ) (hlow : -2147483647 ≤ z) (hhigh : z ≤ 2147483647) :
      (Scalar.int (.ofInt z)).text = toString z := by
    rw [Scalar.text, Int32.toInt_ofInt_of_le (by omega) (by omega)]
  rw [Scalar.negate_ofInt, htext _ (by omega) (by omega), htext _ (by omega) (by omega)] at hprints
  exact hprints

/-- **A text of digits and points is the numeral of a number, or parsing fails there.**  Let the
text be not empty.

* If it has no point and its number is at most 2147483647, this number is printed, in as few digits
  as it needs, and behind a minus sign its opposite; if its number is greater, parsing fails.
* If it has one point and a digit, it is that of a binary32 number, and this number is printed;
  behind a minus sign it is the number times minus one.
* If it has points, but more than one or no digit, parsing fails.

Where parsing fails, it does at the text, with nothing written. -/
theorem run_print_numeral {w : String} (hne : w ≠ "")
    (hw : ∀ c ∈ w.toList, c.isDigit = true ∨ c = '.') :
    (w.toList.count '.' = 0 → Nat.ofDigitChars 10 w.toList 0 ≤ 2147483647 →
      Prints ("print " ++ w ++ ";") (toString (Nat.ofDigitChars 10 w.toList 0)) ∧
      Prints ("print -" ++ w ++ ";") (toString (-(Nat.ofDigitChars 10 w.toList 0 : ℤ)))) ∧
    (w.toList.count '.' = 0 → 2147483647 < Nat.ofDigitChars 10 w.toList 0 →
      FailsToParse ("print " ++ w ++ ";") ⟨.invalidInteger w, ⟨1, 7⟩⟩ ∧
      FailsToParse ("print -" ++ w ++ ";") ⟨.invalidInteger w, ⟨1, 8⟩⟩) ∧
    (w.toList.count '.' = 1 ∧ (∃ c ∈ w.toList, c.isDigit = true) →
      ∃ x, Numeral.float32? w.toList = some x ∧
        Prints ("print " ++ w ++ ";") (FloatStyle.printed.text x) ∧
        Prints ("print -" ++ w ++ ";") (FloatStyle.printed.text (-1 * x))) ∧
    (w.toList.count '.' ≠ 0 ∧ ¬ (w.toList.count '.' = 1 ∧ ∃ c ∈ w.toList, c.isDigit = true) →
      FailsToParse ("print " ++ w ++ ";") ⟨.invalidFloat w, ⟨1, 7⟩⟩ ∧
      FailsToParse ("print -" ++ w ++ ";") ⟨.invalidFloat w, ⟨1, 8⟩⟩) := by
  have hclass : ∀ c ∈ w.toList, isPointOrDigit c = true := fun c hc =>
    isPointOrDigit_iff.mpr (hw c hc)
  have hcs : w.toList ≠ [] := mt String.toList_eq_nil_iff.mp hne
  have hdigits (hpoint : '.' ∉ w.toList) : ∀ c ∈ w.toList, c.isDigit = true := fun c hc =>
    (hw c hc).resolve_right fun heq => hpoint (heq ▸ hc)
  have hmem (hcount : w.toList.count '.' ≠ 0) : '.' ∈ w.toList := by
    by_contra hpoint
    exact hcount (List.count_eq_zero.mpr hpoint)
  have hread := Numeral.float32?_numeral hcs hclass
  refine ⟨fun hcount hle => ?_, fun hcount hlt => ?_, fun hone => ?_, fun hmany => ?_⟩
  · exact prints_digits hne (hdigits (List.count_eq_zero.mp hcount)) hle
  · have hpoint := List.count_eq_zero.mp hcount
    have hscalar : Numeral.scalar? w.toList = none := by
      rw [Numeral.scalar?, if_neg hpoint, Numeral.int32?_digits hcs (hdigits hpoint),
        if_neg (by omega), Option.map_none]
    have hfails := failsToParse_numeral hne hclass hscalar
    rwa [ParseError.Cause.ofNumeral, if_neg hpoint] at hfails
  · have hpoint := hmem (by omega)
    have hsome := (Numeral.isSome_decimal?_iff hclass hpoint).mpr hone
    obtain ⟨x, hx⟩ : ∃ x, Numeral.float32? w.toList = some x := by
      rw [hread]
      exact Option.isSome_iff_exists.mp (by simpa using hsome)
    have hscalar : Numeral.scalar? w.toList = some (.float x) := by
      rw [Numeral.scalar?, if_pos hpoint, hx, Option.map_some]
    have hprints := prints_numeral hne hclass hscalar
    exact ⟨x, hx, hprints⟩
  · have hpoint := hmem hmany.1
    have hnone : Numeral.decimal? w.toList = none :=
      Option.not_isSome_iff_eq_none.mp (mt (Numeral.isSome_decimal?_iff hclass hpoint).mp hmany.2)
    have hscalar : Numeral.scalar? w.toList = none := by
      rw [Numeral.scalar?, if_pos hpoint, hread, hnone, Option.map_none, Option.map_none]
    have hfails := failsToParse_numeral hne hclass hscalar
    rwa [ParseError.Cause.ofNumeral, if_pos hpoint] at hfails

/-- Leading zeros are left out, the least 32-bit integer cannot be written, a numeral may end with
its point, and a point alone is none. -/
theorem run_print_numeral_limits :
    (Prints "print 007;" "7" ∧ Prints "print -007;" "-7") ∧
    FailsToParse "print -2147483648;" ⟨.invalidInteger "2147483648", ⟨1, 8⟩⟩ ∧
    (Prints "print 1.;" "1.0" ∧ Prints "print -1.;" "-1.0") ∧
    FailsToParse "print .;" ⟨.invalidFloat ".", ⟨1, 7⟩⟩ := by
  have hzeros : ∀ c ∈ "007".toList, c.isDigit = true ∨ c = '.' := by simp
  have hleast : ∀ c ∈ "2147483648".toList, c.isDigit = true ∨ c = '.' := by simp
  have hone : ∀ c ∈ "1.".toList, c.isDigit = true ∨ c = '.' := by simp
  have hpoint : ∀ c ∈ ".".toList, c.isDigit = true ∨ c = '.' := by simp
  refine ⟨(run_print_numeral (by decide) hzeros).1 (by decide) (by decide),
    ((run_print_numeral (by decide) hleast).2.1 (by decide) (by decide)).2, ?_,
    ((run_print_numeral (by decide) hpoint).2.2.2 (by simp)).1⟩
  obtain ⟨x, hx, hprints⟩ :=
    (run_print_numeral (by decide) hone).2.2.1 ⟨by decide, '1', by simp, rfl⟩
  have hread : Numeral.float32? "1.".toList = some (Float32.ofBits 0x3F800000) := rfl
  obtain rfl : Float32.ofBits 0x3F800000 = x := Option.some.inj (hread.symm.trans hx)
  have htext : FloatStyle.printed.text (Float32.ofBits 0x3F800000) = "1.0" := by decide +kernel
  have hnegated : FloatStyle.printed.text (-1 * Float32.ofBits 0x3F800000) = "-1.0" := by
    decide +kernel
  rwa [htext, hnegated] at hprints

end Reckon
