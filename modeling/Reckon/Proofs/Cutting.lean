/-
# How a text is cut into tokens

The rules of the lexer depend on the first character of what is still to be read.  For each class of
first characters there is an equation here that says what `munch` gives.  `Munches` has one
constructor for each way of taking a token off, and `munch_eq_none_iff` says which characters no
rule applies to.

`Cuts p cs ts` says that the text `cs`, which begins at the place `p`, is cut into the tokens `ts`,
the end marker included: at its end the marker stands, a character without a rule is skipped, and
otherwise a token is taken off.  This is what the lexer does, `Cuts.iff_eq_drain`, but without a
scanner, and statements about all tokens of a text are proved by induction on it.
-/
import Mathlib.Tactic.Common
import Reckon.Token.Lexer

namespace Reckon

/-! ## The rules by the first character -/

/-- The kind of a word. -/
def wordKind (letters : List Char) : TokenKind :=
  if letters = ['p', 'r', 'i', 'n', 't'] then .print else .name

lemma wordKind_eq (letters : List Char) : wordKind letters = .print ∨ wordKind letters = .name := by
  unfold wordKind
  split
  · exact .inl rfl
  · exact .inr rfl

lemma isPointOrDigit_iff {c : Char} : isPointOrDigit c = true ↔ c.isDigit = true ∨ c = '.' := by
  simp [isPointOrDigit]

lemma isDigit_eq_false {c : Char} (h : isPointOrDigit c = false) : c.isDigit = false := by
  simp only [isPointOrDigit, Bool.or_eq_false_iff] at h
  exact h.1

/-- The ASCII letters come last but for some symbols. -/
lemma isAlpha_eq_false {c : Char} (h : c.toNat < 0x41) : c.isAlpha = false := by
  have hupper : ¬ (c.val ≥ 'A'.val ∧ c.val ≤ 'Z'.val) := fun ⟨hge, _⟩ =>
    absurd (UInt32.le_iff_toNat_le.mp hge) (Nat.not_le.mpr h)
  have hlower : ¬ c.val ≥ 'a'.val := fun hge =>
    absurd (UInt32.le_iff_toNat_le.mp hge) (Nat.not_le.mpr (Nat.lt_trans h (by decide)))
  have hnot : (decide (c.val ≥ 'A'.val ∧ c.val ≤ 'Z'.val) ||
      (decide (c.val ≥ 'a'.val) && decide (c.val ≤ 'z'.val))) = false := by
    rw [decide_eq_false hupper, decide_eq_false hlower]
    rfl
  exact hnot

/-- Points and digits are no letters. -/
lemma isAlphabetic_of_isPointOrDigit {c : Char} (h : isPointOrDigit c = true) :
    Text.isAlphabetic c = false := by
  rcases isPointOrDigit_iff.mp h with hdigit | rfl
  · have hdigits := Char.isDigit_iff_toNat.mp hdigit
    have hlt : c.toNat < 0x41 := Nat.lt_of_le_of_lt hdigits.2 (by decide)
    rw [Text.isAlphabetic_of_ascii (by omega)]
    exact isAlpha_eq_false hlt
  · decide

section munch

variable {c : Char} {cs : List Char}

lemma munch_block (cs : List Char) :
    munch '/' ('*' :: cs) = some (.comment, blockLength 1 cs) := by
  simp [munch]

lemma munch_line (cs : List Char) :
    munch '/' ('/' :: cs) = some (.comment, (cs.takeWhile (· ≠ '\n')).length + 1) := by
  simp [munch]

/-- A slash that begins no comment is a symbol. -/
lemma munch_slash (hstar : cs.head? ≠ some '*') (hslash : cs.head? ≠ some '/') :
    munch '/' cs = some (.divide, 0) := by
  have halphabetic : Text.isAlphabetic '/' = false := by decide
  simp [munch, hstar, hslash, halphabetic, isPointOrDigit, symbol?]

lemma munch_word (h : Text.isAlphabetic c = true) :
    munch c cs = some (wordKind (c :: cs.takeWhile Text.isAlphabetic),
      (cs.takeWhile Text.isAlphabetic).length) := by
  have hslash : c ≠ '/' := by
    rintro rfl
    exact absurd h (by decide)
  simp [munch, hslash, h, wordKind]

lemma munch_numeral (h : isPointOrDigit c = true) :
    munch c cs = if pointAhead (c :: cs) then some (.float, (cs.takeWhile isPointOrDigit).length)
      else some (.integer, (cs.takeWhile Char.isDigit).length) := by
  have hslash : c ≠ '/' := by
    rintro rfl
    exact absurd h (by decide)
  simp [munch, hslash, isAlphabetic_of_isPointOrDigit h, h]

/-- A numeral begins with a digit if there is no point ahead. -/
lemma isDigit_of_not_pointAhead (first : isPointOrDigit c = true)
    (point : pointAhead (c :: cs) = false) : c.isDigit = true := by
  rcases isPointOrDigit_iff.mp first with hdigit | rfl
  · exact hdigit
  · exact absurd point (by simp [pointAhead])

lemma munch_symbol (hslash : c ≠ '/') (halphabetic : Text.isAlphabetic c = false)
    (hnumeral : isPointOrDigit c = false) : munch c cs = (symbol? c).map (·, 0) := by
  simp [munch, hslash, halphabetic, hnumeral]

/-- A symbol is no letter, no point and no digit. -/
lemma classes_of_symbol? {kind : TokenKind} (h : symbol? c = some kind) :
    Text.isAlphabetic c = false ∧ isPointOrDigit c = false := by
  unfold symbol? at h
  split at h
  all_goals first | decide | exact absurd h (by simp)

lemma symbol?_ne {kind : TokenKind} (h : symbol? c = some kind) :
    kind ≠ .float ∧ kind ≠ .comment := by
  unfold symbol? at h
  split at h
  all_goals first | obtain rfl := Option.some.inj h; decide | exact absurd h (by simp)

/-- The ways in which a token can be taken off. -/
inductive Munches : Char → List Char → TokenKind → ℕ → Prop where
  | block (cs : List Char) : Munches '/' ('*' :: cs) .comment (blockLength 1 cs)
  | line (cs : List Char) :
      Munches '/' ('/' :: cs) .comment ((cs.takeWhile (· ≠ '\n')).length + 1)
  | word {c : Char} {cs : List Char} (letter : Text.isAlphabetic c = true) :
      Munches c cs (wordKind (c :: cs.takeWhile Text.isAlphabetic))
        (cs.takeWhile Text.isAlphabetic).length
  | float {c : Char} {cs : List Char} (first : isPointOrDigit c = true)
      (point : pointAhead (c :: cs) = true) :
      Munches c cs .float (cs.takeWhile isPointOrDigit).length
  | integer {c : Char} {cs : List Char} (first : isPointOrDigit c = true)
      (point : pointAhead (c :: cs) = false) :
      Munches c cs .integer (cs.takeWhile Char.isDigit).length
  /-- A slash is a symbol if it does not begin a comment. -/
  | symbol {c : Char} {cs : List Char} {kind : TokenKind} (symbol : symbol? c = some kind)
      (slash : c = '/' → cs.head? ≠ some '*' ∧ cs.head? ≠ some '/') : Munches c cs kind 0

lemma Munches.munch_eq {kind : TokenKind} {n : ℕ} (h : Munches c cs kind n) :
    munch c cs = some (kind, n) := by
  cases h with
  | block cs => exact munch_block cs
  | line cs => exact munch_line cs
  | word letter => exact munch_word letter
  | float first point => rw [munch_numeral first, if_pos point]
  | integer first point => rw [munch_numeral first, if_neg (by simp [point])]
  | symbol symbol slash =>
    by_cases hslash : c = '/'
    · subst hslash
      obtain rfl := Option.some.inj symbol
      exact munch_slash (slash rfl).1 (slash rfl).2
    · obtain ⟨halphabetic, hnumeral⟩ := classes_of_symbol? symbol
      simp [munch_symbol hslash halphabetic hnumeral, symbol]

lemma blockLength_le (n : ℕ) (cs : List Char) : blockLength n cs ≤ n + cs.length := by
  fun_induction blockLength n cs with
  | case1 n cs => simp
  | case2 n c cs _ ih =>
    rw [List.length_cons]
    omega
  | case3 n => exact Nat.le_refl n

/-- A token does not go beyond the end of the text. -/
lemma Munches.le_length {kind : TokenKind} {n : ℕ}
    (h : Munches c cs kind n) : n ≤ cs.length := by
  cases h with
  | block cs =>
    rw [List.length_cons, Nat.add_comm]
    exact blockLength_le 1 cs
  | line cs => exact Nat.succ_le_succ ((List.takeWhile_sublist _).length_le)
  | word | float | integer => exact (List.takeWhile_sublist _).length_le
  | symbol => exact Nat.zero_le _

/-- A token can be taken off unless the first character is no letter, no point, no digit and no
symbol. -/
lemma exists_munches_or (c : Char) (cs : List Char) : (∃ kind n, Munches c cs kind n) ∨
    Text.isAlphabetic c = false ∧ isPointOrDigit c = false ∧ symbol? c = none := by
  cases halphabetic : Text.isAlphabetic c with
  | true => exact .inl ⟨_, _, .word halphabetic⟩
  | false =>
    cases hnumeral : isPointOrDigit c with
    | true =>
      cases hpoint : pointAhead (c :: cs) with
      | true => exact .inl ⟨_, _, .float hnumeral hpoint⟩
      | false => exact .inl ⟨_, _, .integer hnumeral hpoint⟩
    | false =>
      cases hsymbol : symbol? c with
      | none => exact .inr ⟨rfl, rfl, rfl⟩
      | some kind =>
        left
        by_cases hstar : c = '/' ∧ cs.head? = some '*'
        · obtain ⟨rfl, hhead⟩ := hstar
          obtain ⟨cs, rfl⟩ := List.head?_eq_some_iff.mp hhead
          exact ⟨_, _, .block cs⟩
        · by_cases hline : c = '/' ∧ cs.head? = some '/'
          · obtain ⟨rfl, hhead⟩ := hline
            obtain ⟨cs, rfl⟩ := List.head?_eq_some_iff.mp hhead
            exact ⟨_, _, .line cs⟩
          · exact ⟨_, _, .symbol hsymbol fun hslash =>
              ⟨fun hhead => hstar ⟨hslash, hhead⟩, fun hhead => hline ⟨hslash, hhead⟩⟩⟩

/-- No token begins with a character that is no letter, no point, no digit and no symbol. -/
lemma munch_eq_none (halphabetic : Text.isAlphabetic c = false)
    (hnumeral : isPointOrDigit c = false) (hsymbol : symbol? c = none) : munch c cs = none := by
  have hslash : c ≠ '/' := by
    rintro rfl
    exact absurd hsymbol (by simp [symbol?])
  rw [munch_symbol hslash halphabetic hnumeral, hsymbol]
  rfl

/-- The rules of the lexer, one for each way of taking a token off. -/
theorem munch_eq_some_iff {kind : TokenKind} {n : ℕ} :
    munch c cs = some (kind, n) ↔ Munches c cs kind n := by
  refine ⟨fun h => ?_, Munches.munch_eq⟩
  rcases exists_munches_or c cs with ⟨kind', n', hmunches⟩ | ⟨halphabetic, hnumeral, hsymbol⟩
  · obtain ⟨rfl, rfl⟩ := Prod.mk.inj (Option.some.inj (hmunches.munch_eq.symm.trans h))
    exact hmunches
  · exact absurd ((munch_eq_none halphabetic hnumeral hsymbol).symm.trans h) (by simp)

/-- No token begins with a character just if it is no letter, no point, no digit and no symbol. -/
lemma munch_eq_none_iff : munch c cs = none ↔
    Text.isAlphabetic c = false ∧ isPointOrDigit c = false ∧ symbol? c = none := by
  refine ⟨fun h => ?_, fun ⟨halphabetic, hnumeral, hsymbol⟩ =>
    munch_eq_none halphabetic hnumeral hsymbol⟩
  rcases exists_munches_or c cs with ⟨kind, n, hmunches⟩ | hclasses
  · exact absurd (hmunches.munch_eq.symm.trans h) (by simp)
  · exact hclasses

end munch

/-! ## Cutting a text -/

/-- A text that begins at a place is cut into tokens. -/
inductive Cuts : Position → List Char → List Token → Prop where
  | done (p : Position) : Cuts p [] [.endAt p]
  | skip {p : Position} {c : Char} {cs : List Char} {ts : List Token} (none : munch c cs = none)
      (rest : Cuts (p.step c) cs ts) : Cuts p (c :: cs) ts
  | token {p : Position} {c : Char} {cs : List Char} {kind : TokenKind} {n : ℕ} {ts : List Token}
      (some : munch c cs = some (kind, n))
      (rest : Cuts (p.advance (c :: cs.take n)) (cs.drop n) ts) :
      Cuts p (c :: cs) (⟨kind, String.ofList (c :: cs.take n), p⟩ :: ts)

namespace Scanner

lemma drain_nil (p : Position) : drain ⟨[], p⟩ [] = [.endAt p] :=
  drain_of_none rfl []

lemma drain_skip {p : Position} {c : Char} {cs : List Char} (h : munch c cs = none) :
    drain ⟨c :: cs, p⟩ [] = drain ⟨cs, p.step c⟩ [] := by
  have htoken : token? ⟨c :: cs, p⟩ = token? ⟨cs, p.step c⟩ := by
    simp [token?, token?.go, h]
  cases hnext : token? ⟨cs, p.step c⟩ with
  | none =>
    rw [drain_of_none (htoken.trans hnext), drain_of_none hnext]
    rfl
  | some found => rw [drain_of_some (htoken.trans hnext), drain_of_some hnext]

lemma drain_token {p : Position} {c : Char} {cs : List Char} {kind : TokenKind} {n : ℕ}
    (h : munch c cs = some (kind, n)) :
    drain ⟨c :: cs, p⟩ [] = ⟨kind, String.ofList (c :: cs.take n), p⟩ ::
      drain ⟨cs.drop n, p.advance (c :: cs.take n)⟩ [] := by
  have htoken : token? ⟨c :: cs, p⟩ = some (⟨kind, String.ofList (c :: cs.take n), p⟩,
      ⟨cs.drop n, p.advance (c :: cs.take n)⟩) := by
    simp [token?, token?.go, h]
  rw [drain_of_some htoken, drain_eq]
  rfl

end Scanner

namespace Cuts

variable {p : Position} {c : Char} {cs : List Char} {ts : List Token}

lemma of_munch_eq_none (h : Cuts p (c :: cs) ts) (hmunch : munch c cs = none) :
    Cuts (p.step c) cs ts := by
  cases h with
  | skip _ rest => exact rest
  | token some _ => exact absurd (hmunch.symm.trans some) (by simp)

lemma of_munch_eq_some {kind : TokenKind} {text : List Char} (h : Cuts p (c :: (text ++ cs)) ts)
    (hmunch : munch c (text ++ cs) = some (kind, text.length)) :
    ∃ ts', ts = ⟨kind, String.ofList (c :: text), p⟩ :: ts' ∧
      Cuts (p.advance (c :: text)) cs ts' := by
  cases h with
  | skip none _ => exact absurd (none.symm.trans hmunch) (by simp)
  | token some rest =>
    obtain ⟨rfl, rfl⟩ := Prod.mk.inj (Option.some.inj (some.symm.trans hmunch))
    rw [List.take_left, List.drop_left] at rest
    rw [List.take_left]
    exact ⟨_, rfl, rest⟩

lemma drain (p : Position) (cs : List Char) : Cuts p cs (Scanner.drain ⟨cs, p⟩ []) := by
  induction hn : cs.length using Nat.strongRecOn generalizing p cs with
  | ind n ih =>
    subst hn
    cases cs with
    | nil =>
      rw [Scanner.drain_nil]
      exact .done p
    | cons c cs =>
      cases h : munch c cs with
      | none =>
        rw [Scanner.drain_skip h]
        exact .skip h (ih cs.length (Nat.lt_succ_self _) _ _ rfl)
      | some found =>
        obtain ⟨kind, n⟩ := found
        rw [Scanner.drain_token h]
        have hlt : (cs.drop n).length < (c :: cs).length := by
          simp only [List.length_drop, List.length_cons]
          omega
        exact .token h (ih _ hlt _ _ rfl)

/-- A text is cut into tokens in one way, which is how the lexer does it. -/
theorem iff_eq_drain {p : Position} {cs : List Char} {ts : List Token} :
    Cuts p cs ts ↔ ts = Scanner.drain ⟨cs, p⟩ [] := by
  constructor
  · intro h
    induction h with
    | done p => rw [Scanner.drain_nil]
    | skip none _ ih => rw [Scanner.drain_skip none, ih]
    | token some _ ih => rw [Scanner.drain_token some, ih]
  · rintro rfl
    exact drain p cs

/-- A source text is cut into its tokens. -/
lemma tokenize (source : String) : Cuts .start source.toList (tokenize source) :=
  drain _ _

end Cuts

end Reckon
