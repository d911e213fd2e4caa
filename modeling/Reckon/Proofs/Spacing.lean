/-
# Tokens written with gaps between them

Tokens are written down one after the other with a gap behind each of them.  A gap begins with a
blank, and then come more blanks and comments, of which a block comment is closed and a line comment
has its line feed.  The blank is enough to keep the tokens apart: it is no letter, no point and no
digit, it ends the search for a point, and a slash before it begins no comment.  In the gap itself
blanks are left out, and each comment is a token of its own, whatever it contains.

So the tokens that are no comments are found again, `tokenize_spacedText`.  The proof writes down
the decomposition of the text by the rules of the lexer, one lemma for each piece.
-/
import Reckon.Proofs.Layout
import Reckon.Proofs.Rules

namespace Reckon

/-! ## Spaced tokens -/

/-- The texts that the tokens of a kind have, comments and the end marker apart. -/
inductive IsLexeme : TokenKind → List Char → Prop where
  | print : IsLexeme .print ['p', 'r', 'i', 'n', 't']
  | name {text : List Char} (ne_nil : text ≠ [])
      (letters : ∀ c ∈ text, Text.isAlphabetic c = true)
      (other : text ≠ ['p', 'r', 'i', 'n', 't']) : IsLexeme .name text
  | integer {text : List Char} (ne_nil : text ≠ []) (digits : ∀ c ∈ text, c.isDigit = true) :
      IsLexeme .integer text
  | float {text : List Char} (digits : ∀ c ∈ text, isPointOrDigit c = true)
      (point : '.' ∈ text) : IsLexeme .float text
  | symbol {c : Char} {kind : TokenKind} (mem : (c, kind) ∈ LexRule.symbols) : IsLexeme kind [c]

/-- A piece of a gap. -/
inductive Filler where
  | blank (c : Char)
  /-- A block comment with the text between `/*` and `*/`. -/
  | block (body : List Char)
  /-- A line comment with the text between `//` and the line feed. -/
  | line (body : List Char)

namespace Filler

/-- The text of a piece. -/
def text : Filler → List Char
  | blank c => [c]
  | block body => '/' :: '*' :: (body ++ ['*', '/'])
  | line body => '/' :: '/' :: (body ++ ['\n'])

/-- A blank is one, and a comment ends where it is said to. -/
def Valid : Filler → Prop
  | blank c => Text.isBlank c = true
  | block body => ¬ ['*', '/'] <:+: body
  | line body => '\n' ∉ body

instance : DecidablePred Valid
  | blank c => inferInstanceAs (Decidable (Text.isBlank c = true))
  | block body => inferInstanceAs (Decidable (¬ ['*', '/'] <:+: body))
  | line body => inferInstanceAs (Decidable ('\n' ∉ body))

end Filler

/-- A token and the gap behind it. -/
structure SpacedToken where
  kind : TokenKind
  lexeme : String
  /-- The first character of the gap. -/
  blank : Char
  /-- The rest of the gap. -/
  fillers : List Filler

namespace SpacedToken

/-- A token as it is written down. -/
def text (w : SpacedToken) : List Char :=
  w.lexeme.toList ++ w.blank :: w.fillers.flatMap Filler.text

/-- The text is that of a token of the kind, and what follows it is a gap. -/
structure Valid (w : SpacedToken) : Prop where
  lexeme : IsLexeme w.kind w.lexeme.toList
  blank : Text.isBlank w.blank = true
  fillers : ∀ f ∈ w.fillers, f.Valid

end SpacedToken

/-- Tokens written down one after the other. -/
def spacedText (ws : List SpacedToken) : String := String.ofList (ws.flatMap SpacedToken.text)

/-! ## The rules at the pieces of the text -/

section pieces

variable {c : Char} {text body rest : List Char}

/-- A blank ends every run of letters, points and digits. -/
lemma isRun_blank {q : Char → Bool} (hq : ∀ d, Text.isBlank d = true → q d = false)
    (htext : ∀ d ∈ text, q d = true) (hc : Text.isBlank c = true) : IsRun q text (c :: rest) where
  all := htext
  ends d hd := by
    obtain rfl := Option.some.inj hd
    exact hq c hc

/-- A numeral has its point before the next blank if it contains one. -/
lemma hasPoint_append (htext : ∀ d ∈ text, isPointOrDigit d = true) (hpoint : '.' ∈ text)
    (rest : List Char) : HasPoint (text ++ rest) := by
  obtain ⟨before, after, rfl⟩ := List.append_of_mem hpoint
  refine ⟨before, after ++ rest, by simp, fun d hd => ?_⟩
  have hclass := htext d (List.mem_append_left _ hd)
  constructor
  · rw [← Bool.not_eq_true]
    intro hblank
    exact absurd hclass (by simp [isPointOrDigit_of_isBlank hblank])
  · rintro rfl
    exact absurd hclass (by decide)

/-- Behind a blank no point is looked for. -/
lemma not_hasPoint_blank (htext : ∀ d ∈ text, d.isDigit = true) (hc : Text.isBlank c = true)
    (rest : List Char) : ¬ HasPoint (text ++ c :: rest) := by
  have hpoint : '.' ∉ text := fun hmem => absurd (htext '.' hmem) (by decide)
  -- the search ends at the blank
  rw [← pointAhead_iff, pointAhead_insert hc]
  simp [hpoint]

/-- A token in front of a blank is taken off by one of the rules. -/
lemma IsLexeme.exists_rule {kind : TokenKind} (h : IsLexeme kind text) (hc : Text.isBlank c = true)
    (rest : List Char) : ∃ rule : LexRule, rule.Goes (text ++ c :: rest) ∧
      rule.Takes kind text (c :: rest) := by
  cases h with
  | print =>
    have hletters : ∀ d ∈ ['p', 'r', 'i', 'n', 't'], Text.isAlphabetic d = true :=
      List.all_eq_true.mp (by decide)
    exact ⟨_, LexRule.goes_word (by decide) _,
      .keyword (isRun_blank (fun _ => isAlphabetic_of_isBlank) hletters hc)⟩
  | name ne_nil letters other =>
    obtain ⟨d, ds, rfl⟩ := List.exists_cons_of_ne_nil ne_nil
    exact ⟨_, LexRule.goes_word (letters d List.mem_cons_self) _,
      .name (isRun_blank (fun _ => isAlphabetic_of_isBlank) letters hc) other⟩
  | integer ne_nil digits =>
    obtain ⟨d, ds, rfl⟩ := List.exists_cons_of_ne_nil ne_nil
    have hnumeral : isPointOrDigit d = true :=
      isPointOrDigit_iff.mpr (.inl (digits d List.mem_cons_self))
    have hrun : IsRun (·.isDigit) (d :: ds) (c :: rest) :=
      isRun_blank (fun _ hblank => isDigit_eq_false (isPointOrDigit_of_isBlank hblank)) digits hc
    exact ⟨_, LexRule.goes_numeral hnumeral _, .integer hrun (not_hasPoint_blank digits hc rest)⟩
  | float digits point =>
    obtain ⟨d, ds, rfl⟩ := List.exists_cons_of_ne_nil (List.ne_nil_of_mem point)
    exact ⟨_, LexRule.goes_numeral (digits d List.mem_cons_self) _,
      .float (isRun_blank (fun _ => isPointOrDigit_of_isBlank) digits hc)
        (hasPoint_append digits point _)⟩
  | symbol mem =>
    -- neither a slash nor a star follows, so that a slash begins no comment
    refine ⟨_, LexRule.goes_symbol mem fun _ => ?_, .symbol mem _⟩
    have hsymbol := symbol?_of_isBlank hc
    constructor
    all_goals
      intro hhead
      obtain rfl : c = _ := Option.some.inj hhead
      exact absurd hsymbol (by decide)

lemma IsLexeme.kind_ne_comment {kind : TokenKind} (h : IsLexeme kind text) : kind ≠ .comment := by
  cases h with
  | symbol mem => exact (symbol?_ne (LexRule.mem_symbols_iff.mp mem)).2
  | _ => decide

/-- If there is no `*/` in a text, the first one in this text and `*/` behind it is the latter. -/
lemma length_le_of_closes (h : ¬ ['*', '/'] <:+: body) (before after : List Char)
    (heq : body ++ '*' :: '/' :: rest = before ++ '*' :: '/' :: after) :
    body.length ≤ before.length := by
  rcases List.append_eq_append_iff.mp heq with ⟨ds, rfl, -⟩ | ⟨ds, rfl, hds⟩
  · simp
  · -- the text ends with `ds`, which the other `*/` begins with
    match ds with
    | [] => simp
    | [d] => exact absurd hds (by simp)
    | d :: e :: ds =>
      obtain ⟨rfl, rfl, -⟩ : '*' = d ∧ '/' = e ∧ _ := by simpa using hds
      exact absurd ⟨before, ds, by simp⟩ h

end pieces

/-! ## The decomposition of the text -/

section decomposition

variable {before rest : List Char} {ts : List Token}

lemma significant_cons_comment {t : Token} (h : t.kind = .comment) (ts : List Token) :
    significant (t :: ts) = significant ts := by
  simp [significant, h]

lemma significant_cons {t : Token} (h : t.kind ≠ .comment) (ts : List Token) :
    significant (t :: ts) = (t.kind, t.lexeme) :: significant ts := by
  simp [significant, h]

/-- At a blank no rule opens. -/
lemma Decomposes.blank {c : Char} (hc : Text.isBlank c = true)
    (h : Decomposes (before ++ [c]) rest ts) : Decomposes before (c :: rest) ts :=
  .skipped (LexRule.forall_not_opens_iff.mpr (munch_of_isBlank hc rest)) h

/-- A piece of a gap has no other tokens than comments. -/
lemma Decomposes.filler {f : Filler} (hf : f.Valid) (h : Decomposes (before ++ f.text) rest ts) :
    ∃ us, Decomposes before (f.text ++ rest) us ∧ significant us = significant ts := by
  cases f with
  | blank c => exact ⟨ts, .blank hf h, rfl⟩
  | block body =>
    refine ⟨_, .token ?_ (.closed (length_le_of_closes hf)) h, significant_cons_comment rfl ts⟩
    exact LexRule.goes_block _
  | line body =>
    have hrun : IsRun (· ≠ '\n') body ('\n' :: rest) := by
      refine ⟨fun d hd => decide_eq_true ?_, by simp⟩
      rintro rfl
      exact hf hd
    -- the line feed is no part of the comment, and it is a blank
    have hnewline : Decomposes (before ++ '/' :: '/' :: body) ('\n' :: rest) ts :=
      .blank (by decide) (by simpa [Filler.text] using h)
    have hcomment := Decomposes.token (LexRule.goes_line _) (.line hrun) hnewline
    exact ⟨_, by simpa [Filler.text] using hcomment, significant_cons_comment rfl ts⟩

lemma Decomposes.fillers {fs : List Filler} (hfs : ∀ f ∈ fs, f.Valid)
    (h : Decomposes (before ++ fs.flatMap Filler.text) rest ts) :
    ∃ us, Decomposes before (fs.flatMap Filler.text ++ rest) us ∧
      significant us = significant ts := by
  induction fs generalizing before with
  | nil => exact ⟨ts, by simpa using h, rfl⟩
  | cons f fs ih =>
    obtain ⟨hf, hfs⟩ := List.forall_mem_cons.mp hfs
    rw [List.flatMap_cons, ← List.append_assoc] at h
    obtain ⟨us, hus, hsame⟩ := ih hfs h
    obtain ⟨vs, hvs, hsame'⟩ := hus.filler hf
    rw [List.flatMap_cons, List.append_assoc]
    exact ⟨vs, hvs, hsame'.trans hsame⟩

/-- A token and its gap are decomposed into the token and comments. -/
lemma Decomposes.spaced {w : SpacedToken} (hw : w.Valid)
    (h : Decomposes (before ++ w.text) rest ts) :
    ∃ us, Decomposes before (w.text ++ rest) us ∧
      significant us = (w.kind, w.lexeme) :: significant ts := by
  have hgap : Decomposes (before ++ w.lexeme.toList ++ [w.blank] ++ w.fillers.flatMap Filler.text)
      rest ts := by
    simpa [SpacedToken.text] using h
  obtain ⟨us, hus, hsame⟩ := hgap.fillers hw.fillers
  obtain ⟨rule, goes, takes⟩ :=
    hw.lexeme.exists_rule hw.blank (w.fillers.flatMap Filler.text ++ rest)
  have htoken := Decomposes.token goes takes (hus.blank hw.blank)
  refine ⟨_, by simpa [SpacedToken.text] using htoken, ?_⟩
  rw [← hsame]
  exact significant_cons hw.lexeme.kind_ne_comment us

/-- The text of spaced tokens is decomposed into these tokens and comments. -/
lemma exists_decomposes_spaced {ws : List SpacedToken} (h : ∀ w ∈ ws, w.Valid)
    (before : List Char) : ∃ ts, Decomposes before (ws.flatMap SpacedToken.text) ts ∧
      significant ts = ws.map (fun w => (w.kind, w.lexeme)) ++ [(.eof, "EOF")] := by
  induction ws generalizing before with
  | nil => exact ⟨_, .finished before, rfl⟩
  | cons w ws ih =>
    obtain ⟨hw, hws⟩ := List.forall_mem_cons.mp h
    obtain ⟨ts, hts, hsame⟩ := ih hws (before ++ w.text)
    obtain ⟨us, hus, hsame'⟩ := hts.spaced hw
    exact ⟨us, hus, by rw [hsame', hsame]; rfl⟩

end decomposition

/-- **Spaced tokens are found again.**  If tokens are written down with gaps behind them, the tokens
of the text that are no comments are the same, in the same order, and the end marker. -/
theorem tokenize_spacedText {ws : List SpacedToken} (h : ∀ w ∈ ws, w.Valid) :
    significant (tokenize (spacedText ws)) =
      ws.map (fun w => (w.kind, w.lexeme)) ++ [(.eof, "EOF")] := by
  obtain ⟨ts, hts, hsame⟩ := exists_decomposes_spaced h []
  have htokens : ts = tokenize (spacedText ws) := by
    refine Cuts.iff_eq_drain.mp ?_
    simpa [spacedText, Scanner.ofString] using hts.cuts
  rw [← htokens, hsame]

/-- A slash behind a numeral that ends with its point, in front of comments that have the beginning
or the end of another comment in them, and blanks beyond ASCII. -/
theorem tokenize_spacedText_comments :
    let ws : List SpacedToken :=
      [⟨.print, "print", '\u3000', []⟩,
        ⟨.float, "5.", ' ', [.block ['/', ' ']]⟩,
        ⟨.divide, "/", '\n', [.block ['*'], .line ['/', '*', ' ', ';']]⟩,
        ⟨.name, "prınt", '\t', [.line ['*', '/'], .blank '\u2028']⟩,
        ⟨.integer, "07", ' ', [.block ['1', '.', ';']]⟩,
        ⟨.semi, ";", ' ', []⟩]
    (∀ w ∈ ws, w.Valid) ∧ significant (tokenize (spacedText ws)) =
      [(.print, "print"), (.float, "5."), (.divide, "/"), (.name, "prınt"), (.integer, "07"),
        (.semi, ";"), (.eof, "EOF")] := by
  intro ws
  have hws : ∀ w ∈ ws, w.Valid := by
    simp only [ws, List.forall_mem_cons, List.not_mem_nil, false_implies, implies_true, and_true]
    exact ⟨⟨.print, by decide, by decide⟩,
      ⟨.float (List.all_eq_true.mp (by decide)) (by decide), by decide, by decide⟩,
      ⟨.symbol (by decide), by decide, by decide⟩,
      ⟨.name (by decide) (List.all_eq_true.mp (by decide)) (by decide), by decide, by decide⟩,
      ⟨.integer (by decide) (List.all_eq_true.mp (by decide)), by decide, by decide⟩,
      ⟨.symbol (by decide), by decide, by decide⟩⟩
  exact ⟨hws, tokenize_spacedText hws⟩

end Reckon
