/-
# From text to tokens

The lexer reads a text from the left.  At each character at most one of five rules applies, in
this order of precedence: a comment between `/*` and `*/`, a comment from `//` to the end of the
line, a word, a numeral, a symbol.  A character to which none applies is skipped, so lexing never
fails.  Words, numerals and line comments are as long as they can be; a block comment that is not
closed runs to the end of the text.

`munch` states the rules for one character and what follows it.  A `Scanner` is a place in a text
together with the text still to be read; `Scanner.token?` cuts off the next token, and `tokenize`
collects all of them and the end marker.
-/
import Reckon.Text.Alphabetic
import Reckon.Text.Blank
import Reckon.Token

namespace Reckon

/-! ## The token at a character -/

/-- The symbols that are tokens of one character. -/
def symbol? (c : Char) : Option TokenKind :=
  match c with
  | '+' => some .plus
  | '-' => some .minus
  | '*' => some .times
  | '/' => some .divide
  | '(' => some .lparen
  | ')' => some .rparen
  | ';' => some .semi
  | _ => none

/-- How many characters of `cs` a block comment takes, up to and including the first `*/`, when
`n` of its characters have been counted before. -/
def blockLength (n : Nat) : List Char → Nat
  | '*' :: '/' :: _ => n + 2
  | _ :: cs => blockLength (n + 1) cs
  | [] => n

/-- Whether a decimal point stands before the next blank or semicolon.  This makes the
difference between the two kinds of numerals, and it looks beyond the numeral itself. -/
def pointAhead : List Char → Bool
  | [] => false
  | c :: cs => if c = '.' then true else if Text.isBlank c || c = ';' then false else pointAhead cs

/-- A character of a numeral that has a decimal point. -/
def isPointOrDigit (c : Char) : Bool := c.isDigit || c = '.'

/-- The kind of the token that begins with `c`, when `cs` follows, and how many characters of
`cs` belong to it. -/
def munch (c : Char) (cs : List Char) : Option (TokenKind × Nat) :=
  if c = '/' ∧ cs.head? = some '*' then
    some (.comment, blockLength 1 cs.tail)
  else if c = '/' ∧ cs.head? = some '/' then
    some (.comment, (cs.takeWhile (· ≠ '\n')).length)
  else if Text.isAlphabetic c then
    let letters := cs.takeWhile Text.isAlphabetic
    some (if c :: letters = ['p', 'r', 'i', 'n', 't'] then .print else .name, letters.length)
  else if isPointOrDigit c then
    if pointAhead (c :: cs) then
      some (.float, (cs.takeWhile isPointOrDigit).length)
    else
      some (.integer, (cs.takeWhile Char.isDigit).length)
  else
    (symbol? c).map (·, 0)

theorem symbol?_ne_eof {c : Char} {k : TokenKind} (h : symbol? c = some k) : k ≠ .eof := by
  unfold symbol? at h
  split at h <;> simp_all <;> subst h <;> simp

/-- No text is cut off as the end of the input. -/
theorem munch_kind_ne_eof {c : Char} {cs : List Char} {k : TokenKind} {n : Nat}
    (h : munch c cs = some (k, n)) : k ≠ .eof := by
  unfold munch at h
  split at h
  · simp_all; simp [← h.1]
  · split at h
    · simp_all; simp [← h.1]
    · split at h
      · simp only [Option.some.injEq, Prod.mk.injEq] at h
        rw [← h.1]; split <;> simp
      · split at h
        · split at h <;> simp only [Option.some.injEq, Prod.mk.injEq] at h <;> simp [← h.1]
        · simp only [Option.map_eq_some_iff, Prod.mk.injEq] at h
          obtain ⟨l, hl, rfl, -⟩ := h
          exact symbol?_ne_eof hl

/-! ## The text still to be read -/

/-- A place in a source text and the characters from there on. -/
structure Scanner where
  /-- The characters still to be read. -/
  rest : List Char
  /-- The place of the first of them. -/
  position : Position
deriving Repr, DecidableEq

namespace Scanner

/-- The beginning of a source text. -/
def ofString (source : String) : Scanner := ⟨source.toList, .start⟩

/-- The next token and what remains after it; nothing when no token is left. -/
def token? (s : Scanner) : Option (Token × Scanner) :=
  go s.rest s.position
where
  /-- The same for the text and the place as two arguments. -/
  go : List Char → Position → Option (Token × Scanner)
    | [], _ => none
    | c :: cs, p =>
      match munch c cs with
      | some (kind, n) =>
        let text := c :: cs.take n
        some (⟨kind, String.ofList text, p⟩, ⟨cs.drop n, p.advance text⟩)
      | none => go cs (p.step c)

/-- The place where the text ends. -/
def finish (s : Scanner) : Position := s.position.advance s.rest

/-- The next token, which at the end of the text is the end marker, and what remains after
it. -/
def next (s : Scanner) : Token × Scanner :=
  match s.token? with
  | some (t, s') => (t, s')
  | none => (.endAt s.finish, ⟨[], s.finish⟩)

/-- The first `n` tokens, the end marker being repeated as often as is needed. -/
def take : Nat → Scanner → List Token
  | 0, _ => []
  | n + 1, s =>
    let found := s.next
    found.1 :: take n found.2

theorem length_rest_lt_of_go {cs : List Char} {p : Position} {t : Token} {s : Scanner}
    (h : token?.go cs p = some (t, s)) : s.rest.length < cs.length := by
  induction cs generalizing p with
  | nil => simp [token?.go] at h
  | cons c cs ih =>
    unfold token?.go at h
    split at h
    · simp only [Option.some.injEq, Prod.mk.injEq] at h
      obtain ⟨-, rfl⟩ := h
      simp only [List.length_drop, List.length_cons]
      omega
    · exact Nat.lt_succ_of_lt (ih h)

/-- A token takes at least one character. -/
theorem length_rest_lt {s s' : Scanner} {t : Token} (h : s.token? = some (t, s')) :
    s'.rest.length < s.rest.length :=
  length_rest_lt_of_go h

/-- The tokens of the remaining text and the end marker, after those found already, the last
of which comes first. -/
def drain (s : Scanner) (found : List Token) : List Token :=
  match h : s.token? with
  | some (t, s') => s'.drain (t :: found)
  | none => found.reverse ++ [.endAt s.finish]
termination_by s.rest.length
decreasing_by exact length_rest_lt h

theorem drain_of_some {s s' : Scanner} {t : Token} (h : s.token? = some (t, s'))
    (found : List Token) : s.drain found = s'.drain (t :: found) := by
  rw [drain]
  split <;> simp_all

theorem drain_of_none {s : Scanner} (h : s.token? = none) (found : List Token) :
    s.drain found = found.reverse ++ [.endAt s.finish] := by
  rw [drain]
  split <;> simp_all

theorem drain_eq (s : Scanner) (found : List Token) :
    s.drain found = found.reverse ++ s.drain [] := by
  induction hn : s.rest.length using Nat.strongRecOn generalizing s found with
  | ind n ih =>
    cases h : s.token? with
    | none => rw [drain_of_none h, drain_of_none h, List.reverse_nil, List.nil_append]
    | some r =>
      obtain ⟨t, s'⟩ := r
      have lt := hn ▸ length_rest_lt h
      rw [drain_of_some h, drain_of_some h, ih _ lt s' _ rfl, ih _ lt s' [t] rfl]
      simp

end Scanner

/-- All tokens of a source text, the last one being the end marker. -/
def tokenize (source : String) : List Token :=
  (Scanner.ofString source).drain []

end Reckon
