/-
# The rules of the lexer by precedence

Here the rules of the lexer are told without counting characters.  A rule opens where the text
begins in a certain way, of all rules that open the first one goes, and what it takes off is told by
what the token is made of and by what comes behind it.  A text is decomposed into tokens from the
left; a character at which no rule opens is left out.

The order of precedence matters for the slash only, since it begins comments of two kinds and is a
symbol too.  `LexRule.Takes.munches` and `Munches.exists_takes` compare one token with what the
lexer takes off.  The main result is that a text is decomposed in exactly one way,
`decomposes_iff_eq_tokenize`.
-/
import Reckon.Proofs.Insertion
import Reckon.Proofs.Offsets

namespace Reckon

/-! ## The rules -/

/-- The rules of the lexer. -/
inductive LexRule where
  /-- A comment between `/*` and `*/`. -/
  | block
  /-- A comment from `//` to the end of the line. -/
  | line
  | word
  | numeral
  | symbol
deriving DecidableEq

namespace LexRule

/-- The place of a rule in the order of precedence. -/
def number : LexRule → ℕ
  | block => 1
  | line => 2
  | word => 3
  | numeral => 4
  | symbol => 5

/-- The characters that are tokens by themselves. -/
def symbols : List (Char × TokenKind) :=
  [('+', .plus), ('-', .minus), ('*', .times), ('/', .divide), ('(', .lparen), (')', .rparen),
    (';', .semi)]

/-- A text begins as a rule asks for. -/
inductive Opens : LexRule → List Char → Prop where
  | block (cs : List Char) : Opens block ('/' :: '*' :: cs)
  | line (cs : List Char) : Opens line ('/' :: '/' :: cs)
  | word {c : Char} (letter : Text.isAlphabetic c = true) (cs : List Char) : Opens word (c :: cs)
  | numeral {c : Char} (first : isPointOrDigit c = true) (cs : List Char) : Opens numeral (c :: cs)
  | symbol {c : Char} {kind : TokenKind} (mem : (c, kind) ∈ symbols) (cs : List Char) :
      Opens symbol (c :: cs)

/-- A rule goes if it opens and none before it does. -/
structure Goes (rule : LexRule) (cs : List Char) : Prop where
  opens : rule.Opens cs
  first : ∀ other : LexRule, other.Opens cs → rule.number ≤ other.number

end LexRule

/-- A point stands before the next blank, the next semicolon and the end of the text. -/
def HasPoint (cs : List Char) : Prop :=
  ∃ before after, cs = before ++ '.' :: after ∧
    ∀ c ∈ before, Text.isBlank c = false ∧ c ≠ ';'

/-- What a rule takes off the beginning of a text: a token of a kind, and `rest` follows it. -/
inductive LexRule.Takes : LexRule → TokenKind → List Char → List Char → Prop where
  /-- A comment is closed by the first `*/` behind the `/*` that it begins with. -/
  | closed {body rest : List Char}
      (first : ∀ before after, body ++ '*' :: '/' :: rest = before ++ '*' :: '/' :: after →
        body.length ≤ before.length) :
      Takes block .comment ('/' :: '*' :: (body ++ ['*', '/'])) rest
  /-- If there is none, it takes all of the text. -/
  | unclosed {body : List Char} (never : ∀ before after, body ≠ before ++ '*' :: '/' :: after) :
      Takes block .comment ('/' :: '*' :: body) []
  | line {body rest : List Char} (run : IsRun (· ≠ '\n') body rest) :
      Takes line .comment ('/' :: '/' :: body) rest
  | keyword {rest : List Char} (run : IsRun Text.isAlphabetic ['p', 'r', 'i', 'n', 't'] rest) :
      Takes word .print ['p', 'r', 'i', 'n', 't'] rest
  | name {c : Char} {letters rest : List Char}
      (run : IsRun Text.isAlphabetic (c :: letters) rest)
      (other : c :: letters ≠ ['p', 'r', 'i', 'n', 't']) : Takes word .name (c :: letters) rest
  | float {c : Char} {cs rest : List Char} (run : IsRun isPointOrDigit (c :: cs) rest)
      (point : HasPoint (c :: (cs ++ rest))) : Takes numeral .float (c :: cs) rest
  | integer {c : Char} {cs rest : List Char} (run : IsRun Char.isDigit (c :: cs) rest)
      (point : ¬ HasPoint (c :: (cs ++ rest))) : Takes numeral .integer (c :: cs) rest
  | symbol {c : Char} {kind : TokenKind} (mem : (c, kind) ∈ symbols) (rest : List Char) :
      Takes symbol kind [c] rest

/-- What follows `before` in a text is decomposed into tokens by the rules. -/
inductive Decomposes : List Char → List Char → List Token → Prop where
  | finished (before : List Char) :
      Decomposes before [] [⟨.eof, "EOF", .ofOffset before before.length⟩]
  | token {rule : LexRule} {kind : TokenKind} {before text rest : List Char} {ts : List Token}
      (goes : rule.Goes (text ++ rest)) (takes : rule.Takes kind text rest)
      (others : Decomposes (before ++ text) rest ts) :
      Decomposes before (text ++ rest)
        (⟨kind, String.ofList text, .ofOffset (before ++ (text ++ rest)) before.length⟩ :: ts)
  | skipped {c : Char} {before rest : List Char} {ts : List Token}
      (none : ∀ rule : LexRule, ¬ rule.Opens (c :: rest))
      (others : Decomposes (before ++ [c]) rest ts) : Decomposes before (c :: rest) ts

/-! ## Which rule goes -/

namespace LexRule

variable {c : Char} {cs : List Char} {kind : TokenKind}

lemma mem_symbols_iff : (c, kind) ∈ symbols ↔ symbol? c = some kind := by
  constructor
  · intro hmem
    simp only [symbols, List.mem_cons, Prod.mk.injEq, List.not_mem_nil, or_false] at hmem
    rcases hmem with ⟨rfl, rfl⟩ | ⟨rfl, rfl⟩ | ⟨rfl, rfl⟩ | ⟨rfl, rfl⟩ | ⟨rfl, rfl⟩ |
      ⟨rfl, rfl⟩ | ⟨rfl, rfl⟩
    all_goals rfl
  · intro h
    unfold symbol? at h
    split at h
    all_goals first | obtain rfl := Option.some.inj h; decide | exact absurd h (by simp)

lemma goes_block (cs : List Char) : Goes block ('/' :: '*' :: cs) where
  opens := .block cs
  first other _ := by cases other <;> decide

lemma goes_line (cs : List Char) : Goes line ('/' :: '/' :: cs) where
  opens := .line cs
  first other h := by cases h <;> decide

/-- Comments begin with a slash. -/
lemma Opens.eq_slash {rule : LexRule} (h : rule.Opens (c :: cs)) (hrule : rule.number ≤ 2) :
    c = '/' ∧ (cs.head? = some '*' ∨ cs.head? = some '/') := by
  cases h with
  | block | line => simp
  | word | numeral | symbol => exact absurd hrule (by decide)

lemma goes_word (letter : Text.isAlphabetic c = true) (cs : List Char) : Goes word (c :: cs) where
  opens := .word letter cs
  first other h := by
    by_contra hlt
    obtain ⟨rfl, -⟩ := h.eq_slash (by simp only [number] at hlt ⊢; omega)
    exact absurd letter (by decide)

lemma goes_numeral (hc : isPointOrDigit c = true) (cs : List Char) : Goes numeral (c :: cs) where
  opens := .numeral hc cs
  first other h := by
    cases h with
    | block | line => exact absurd hc (by decide)
    | word letter => exact absurd letter (by simp [isAlphabetic_of_isPointOrDigit hc])
    | numeral | symbol => decide

/-- A slash is a symbol unless it begins a comment. -/
lemma goes_symbol (mem : (c, kind) ∈ symbols)
    (slash : c = '/' → cs.head? ≠ some '*' ∧ cs.head? ≠ some '/') : Goes symbol (c :: cs) where
  opens := .symbol mem cs
  first other h := by
    obtain ⟨halphabetic, hnumeral⟩ := classes_of_symbol? (mem_symbols_iff.mp mem)
    cases h with
    | block => exact absurd rfl (slash rfl).1
    | line => exact absurd rfl (slash rfl).2
    | word letter => exact absurd letter (by simp [halphabetic])
    | numeral first => exact absurd first (by simp [hnumeral])
    | symbol => decide

/-- No rule opens at a character just if the lexer takes nothing off there. -/
lemma forall_not_opens_iff : (∀ rule : LexRule, ¬ rule.Opens (c :: cs)) ↔ munch c cs = none := by
  rw [munch_eq_none_iff]
  constructor
  · intro h
    refine ⟨?_, ?_, ?_⟩
    · rw [← Bool.not_eq_true]
      exact fun letter => h word (.word letter cs)
    · rw [← Bool.not_eq_true]
      exact fun first => h numeral (.numeral first cs)
    · rw [← Option.not_isSome_iff_eq_none, Option.isSome_iff_exists]
      exact fun ⟨kind, hkind⟩ => h symbol (.symbol (mem_symbols_iff.mpr hkind) cs)
  · rintro ⟨halphabetic, hnumeral, hsymbol⟩ rule hopens
    cases hopens with
    | block | line => exact absurd hsymbol (by decide)
    | word letter => exact absurd letter (by simp [halphabetic])
    | numeral first => exact absurd first (by simp [hnumeral])
    | symbol mem => exact absurd (mem_symbols_iff.mp mem) (by simp [hsymbol])

end LexRule

/-! ## What a rule takes off -/

/-- The lexer looks for a point as the rule for numerals does. -/
lemma pointAhead_iff {cs : List Char} : pointAhead cs = true ↔ HasPoint cs := by
  induction cs with
  | nil => simp [pointAhead, HasPoint]
  | cons c cs ih =>
    rw [pointAhead]
    split_ifs with hpoint hstop
    · subst hpoint
      exact iff_of_true rfl ⟨[], cs, rfl, List.forall_mem_nil _⟩
    · refine iff_of_false (by simp) ?_
      rintro ⟨before, after, heq, hbefore⟩
      cases before with
      | nil => exact hpoint (List.cons.inj heq).1
      | cons d before =>
        obtain ⟨rfl, -⟩ := List.cons.inj heq
        obtain ⟨hblank, hsemi⟩ := hbefore c List.mem_cons_self
        simp [hblank, hsemi] at hstop
    · rw [ih]
      constructor
      · rintro ⟨before, after, rfl, hbefore⟩
        refine ⟨c :: before, after, rfl, List.forall_mem_cons.mpr ⟨?_, hbefore⟩⟩
        simpa using hstop
      · rintro ⟨before, after, heq, hbefore⟩
        cases before with
        | nil => exact absurd (List.cons.inj heq).1 hpoint
        | cons d before =>
          obtain ⟨rfl, rfl⟩ := List.cons.inj heq
          exact ⟨before, after, rfl, fun d hd => hbefore d (List.mem_cons_of_mem c hd)⟩

/-- A block comment is closed by the first `*/`, or it has none and takes all of the text. -/
lemma blockLength_cases (n : ℕ) (cs : List Char) :
    (∃ body rest, cs = body ++ '*' :: '/' :: rest ∧
      (∀ before after, cs = before ++ '*' :: '/' :: after → body.length ≤ before.length) ∧
      blockLength n cs = n + body.length + 2) ∨
    ((∀ before after, cs ≠ before ++ '*' :: '/' :: after) ∧ blockLength n cs = n + cs.length) := by
  induction cs generalizing n with
  | nil => exact .inr ⟨by simp, rfl⟩
  | cons c cs ih =>
    by_cases hclose : c = '*' ∧ cs.head? = some '/'
    · obtain ⟨rfl, hhead⟩ := hclose
      obtain ⟨cs, rfl⟩ := List.head?_eq_some_iff.mp hhead
      exact .inl ⟨[], cs, rfl, fun _ _ _ => Nat.zero_le _, rfl⟩
    · -- no `*/` begins here, so that all of them are those of the rest
      have hlater : ∀ before after, c :: cs = before ++ '*' :: '/' :: after →
          ∃ before', before = c :: before' ∧ cs = before' ++ '*' :: '/' :: after := by
        intro before after heq
        cases before with
        | nil =>
          obtain ⟨rfl, rfl⟩ := List.cons.inj heq
          exact absurd ⟨rfl, rfl⟩ hclose
        | cons d before =>
          obtain ⟨rfl, hrest⟩ := List.cons.inj heq
          exact ⟨before, rfl, hrest⟩
      rw [blockLength_of_open hclose]
      rcases ih (n + 1) with ⟨body, rest, rfl, hfirst, hlength⟩ | ⟨hnever, hlength⟩
      · refine .inl ⟨c :: body, rest, rfl, fun before after heq => ?_, ?_⟩
        · obtain ⟨before, rfl, hrest⟩ := hlater before after heq
          exact Nat.succ_le_succ (hfirst before after hrest)
        · rw [hlength, List.length_cons]
          omega
      · refine .inr ⟨fun before after heq => ?_, ?_⟩
        · obtain ⟨before, rfl, hrest⟩ := hlater before after heq
          exact hnever before after hrest
        · rw [hlength, List.length_cons]
          omega

/-- The first `*/` ends a block comment. -/
lemma blockLength_of_first {body rest : List Char}
    (first : ∀ before after, body ++ '*' :: '/' :: rest = before ++ '*' :: '/' :: after →
      body.length ≤ before.length) (n : ℕ) :
    blockLength n (body ++ '*' :: '/' :: rest) = n + body.length + 2 := by
  rcases blockLength_cases n (body ++ '*' :: '/' :: rest) with
    ⟨body', rest', heq, hfirst, hlength⟩ | ⟨hnever, -⟩
  · rw [hlength, Nat.le_antisymm (hfirst body rest rfl) (first body' rest' heq)]
  · exact absurd rfl (hnever body rest)

lemma blockLength_of_never {body : List Char}
    (never : ∀ before after, body ≠ before ++ '*' :: '/' :: after) (n : ℕ) :
    blockLength n body = n + body.length := by
  rcases blockLength_cases n body with ⟨body', rest', heq, -⟩ | ⟨-, hlength⟩
  · exact absurd heq (never body' rest')
  · exact hlength

namespace LexRule

variable {c : Char} {cs rest : List Char}

lemma munches_word (run : IsRun Text.isAlphabetic (c :: cs) rest) :
    Munches c (cs ++ rest) (wordKind (c :: cs)) cs.length := by
  obtain ⟨letter, hrun⟩ := IsRun.cons_iff.mp run
  have hmunches : Munches c (cs ++ rest) _ _ := .word letter
  rwa [hrun.takeWhile_eq] at hmunches

/-- What a rule takes off, the lexer takes off. -/
lemma Takes.munches {rule : LexRule} {kind : TokenKind} {text : List Char}
    (h : rule.Takes kind text rest) (goes : rule.Goes (text ++ rest)) :
    ∃ c cs, text = c :: cs ∧ Munches c (cs ++ rest) kind cs.length := by
  cases h with
  | @closed body _ first =>
    have hmunches := Munches.block (body ++ '*' :: '/' :: rest)
    rw [blockLength_of_first first] at hmunches
    refine ⟨_, _, rfl, ?_⟩
    simpa [Nat.add_comm, Nat.add_left_comm] using hmunches
  | @unclosed body never =>
    have hmunches := Munches.block body
    rw [blockLength_of_never never] at hmunches
    refine ⟨_, _, rfl, ?_⟩
    simpa [Nat.add_comm] using hmunches
  | @line body _ run =>
    have hmunches := Munches.line (body ++ rest)
    rw [run.takeWhile_eq] at hmunches
    exact ⟨_, _, rfl, hmunches⟩
  | keyword run => exact ⟨_, _, rfl, munches_word run⟩
  | name run other =>
    have hmunches := munches_word run
    rw [wordKind, if_neg other] at hmunches
    exact ⟨_, _, rfl, hmunches⟩
  | @float c cs _ run point =>
    obtain ⟨first, hrun⟩ := IsRun.cons_iff.mp run
    have hmunches := Munches.float first (pointAhead_iff.mpr point)
    rw [hrun.takeWhile_eq] at hmunches
    exact ⟨_, _, rfl, hmunches⟩
  | @integer c cs _ run point =>
    obtain ⟨digit, hrun⟩ := IsRun.cons_iff.mp run
    have hmunches := Munches.integer (isPointOrDigit_iff.mpr (.inl digit))
      (Bool.eq_false_iff.mpr (mt pointAhead_iff.mp point))
    rw [hrun.takeWhile_eq] at hmunches
    exact ⟨_, _, rfl, hmunches⟩
  | symbol mem =>
    refine ⟨_, _, rfl, .symbol (mem_symbols_iff.mp mem) ?_⟩
    -- if it is a slash that begins a comment, the rule for the comment goes
    rintro rfl
    constructor
    · intro hhead
      obtain ⟨cs, rfl⟩ := List.head?_eq_some_iff.mp hhead
      exact absurd (goes.first LexRule.block (.block cs)) (by decide)
    · intro hhead
      obtain ⟨cs, rfl⟩ := List.head?_eq_some_iff.mp hhead
      exact absurd (goes.first LexRule.line (.line cs)) (by decide)

lemma exists_takes_of_append {rule : LexRule} {kind : TokenKind} {n : ℕ} (text : List Char)
    (hcs : cs = text ++ rest) (hn : n = text.length) (goes : rule.Goes (c :: cs))
    (takes : rule.Takes kind (c :: text) rest) :
    ∃ rule : LexRule, rule.Goes (c :: cs) ∧ rule.Takes kind (c :: cs.take n) (cs.drop n) := by
  refine ⟨rule, goes, ?_⟩
  rwa [hcs, hn, List.take_left, List.drop_left]

end LexRule

/-- What the lexer takes off, a rule takes off. -/
lemma Munches.exists_takes {c : Char} {cs : List Char} {kind : TokenKind} {n : ℕ}
    (h : Munches c cs kind n) :
    ∃ rule : LexRule, rule.Goes (c :: cs) ∧ rule.Takes kind (c :: cs.take n) (cs.drop n) := by
  cases h with
  | block cs =>
    rcases blockLength_cases 1 cs with ⟨body, rest, rfl, hfirst, hlength⟩ | ⟨hnever, hlength⟩
    · refine LexRule.exists_takes_of_append ('*' :: (body ++ ['*', '/'])) (by simp) ?_
        (LexRule.goes_block _) (.closed hfirst)
      simp [hlength, Nat.add_comm, Nat.add_left_comm]
    · refine LexRule.exists_takes_of_append ('*' :: cs) (by simp) ?_
        (LexRule.goes_block _) (.unclosed hnever)
      simp [hlength, Nat.add_comm]
  | line cs =>
    obtain ⟨body, rest, rfl, hrun⟩ := exists_isRun (· ≠ '\n') cs
    rw [hrun.takeWhile_eq]
    exact LexRule.exists_takes_of_append ('/' :: body) rfl rfl (LexRule.goes_line _)
      (.line hrun)
  | word letter =>
    obtain ⟨letters, rest, rfl, hrun⟩ := exists_isRun Text.isAlphabetic cs
    rw [hrun.takeWhile_eq]
    refine LexRule.exists_takes_of_append _ rfl rfl (LexRule.goes_word letter _) ?_
    have hword := IsRun.cons_iff.mpr ⟨letter, hrun⟩
    unfold wordKind
    split_ifs with hprint
    · rw [hprint] at hword ⊢
      exact .keyword hword
    · exact .name hword hprint
  | float first point =>
    obtain ⟨cs, rest, rfl, hrun⟩ := exists_isRun isPointOrDigit cs
    rw [hrun.takeWhile_eq]
    exact LexRule.exists_takes_of_append _ rfl rfl (LexRule.goes_numeral first _)
      (.float (IsRun.cons_iff.mpr ⟨first, hrun⟩) (pointAhead_iff.mp point))
  | integer first point =>
    obtain ⟨cs, rest, rfl, hrun⟩ := exists_isRun Char.isDigit cs
    rw [hrun.takeWhile_eq]
    have hdigit := isDigit_of_not_pointAhead first point
    exact LexRule.exists_takes_of_append _ rfl rfl (LexRule.goes_numeral first _)
      (.integer (IsRun.cons_iff.mpr ⟨hdigit, hrun⟩) (by simp [← pointAhead_iff, point]))
  | symbol symbol slash =>
    have hmem := LexRule.mem_symbols_iff.mpr symbol
    exact LexRule.exists_takes_of_append [] rfl rfl (LexRule.goes_symbol hmem slash)
      (.symbol hmem cs)

/-! ## Decomposing a text -/

/-- The lexer cuts a text as the rules say. -/
lemma Cuts.decomposes {p : Position} {cs : List Char} {ts : List Token} (h : Cuts p cs ts)
    {before : List Char} (hp : p = Position.start.advance before) : Decomposes before cs ts := by
  induction h generalizing before with
  | done p =>
    rw [hp, Position.advance_start]
    exact .finished before
  | @skip p c cs ts none _ ih =>
    have hstep : p.step c = Position.start.advance (before ++ [c]) := by simp [hp]
    exact .skipped (LexRule.forall_not_opens_iff.mpr none) (ih hstep)
  | @token p c cs kind n ts some _ ih =>
    obtain ⟨rule, goes, takes⟩ := (munch_eq_some_iff.mp some).exists_takes
    have hstep : p.advance (c :: cs.take n) =
        Position.start.advance (before ++ c :: cs.take n) := by
      simp [hp]
    have hcs : c :: cs = c :: cs.take n ++ cs.drop n := by simp
    rw [hcs] at goes ⊢
    rw [hp, ← Position.ofOffset_append]
    exact .token goes takes (ih hstep)

lemma Cuts.token_append {p : Position} {c : Char} {text rest : List Char} {kind : TokenKind}
    {ts : List Token} (h : munch c (text ++ rest) = some (kind, text.length))
    (hrest : Cuts (p.advance (c :: text)) rest ts) :
    Cuts p (c :: (text ++ rest)) (⟨kind, String.ofList (c :: text), p⟩ :: ts) := by
  have hcuts : Cuts p (c :: (text ++ rest))
      (⟨kind, String.ofList (c :: (text ++ rest).take text.length), p⟩ :: ts) :=
    .token h (by rwa [List.take_left, List.drop_left])
  rwa [List.take_left] at hcuts

/-- What the rules allow is what the lexer does. -/
lemma Decomposes.cuts {before cs : List Char} {ts : List Token} (h : Decomposes before cs ts) :
    Cuts (Position.start.advance before) cs ts := by
  induction h with
  | finished before =>
    rw [← Position.advance_start]
    exact .done _
  | @token rule kind before text rest ts goes takes _ ih =>
    obtain ⟨c, cs, rfl, hmunches⟩ := takes.munches goes
    rw [Position.advance_append] at ih
    rw [Position.ofOffset_append, List.cons_append]
    exact .token_append hmunches.munch_eq ih
  | @skipped c before rest ts none _ ih =>
    rw [Position.advance_append] at ih
    exact .skip (LexRule.forall_not_opens_iff.mp none) ih

/-- **The rules allow one decomposition of a text only**, and it is that into its tokens. -/
theorem decomposes_iff_eq_tokenize {source : String} {ts : List Token} :
    Decomposes [] source.toList ts ↔ ts = tokenize source := by
  constructor
  · intro h
    exact Cuts.iff_eq_drain.mp h.cuts
  · rintro rfl
    exact (Cuts.tokenize source).decomposes rfl

end Reckon
