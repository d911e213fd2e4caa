/-
# One text below another

A text and a second one below it, with a line feed between them, are cut into the tokens of the
first and those of the second.  The rules of the lexer do not look beyond a line feed: it ends
words, numerals and line comments, it is no point and the search for one stops at it, and a slash
before it begins no comment.  Only a block comment goes on, if it is not closed, and it is the last
token then.  The column begins anew behind a line feed, so that the places in the second text differ
from what they are without the first in their lines only, and all by the same number.

The main result is `tokenize_append_newline`.
-/
import Reckon.Proofs.Insertion
import Reckon.Proofs.Offsets
import Reckon.Proofs.Rereading

namespace Reckon

/-! ## Places further down -/

namespace Position

/-- The place `k` lines further down. -/
def lower (k : ℕ) (p : Position) : Position := ⟨p.line + k, p.column⟩

lemma step_lower (k : ℕ) (p : Position) (c : Char) : (p.lower k).step c = (p.step c).lower k := by
  by_cases h : c = '\n'
  · subst h
    simp [lower, Nat.add_right_comm]
  · rw [step_of_ne h, step_of_ne h]
    rfl

lemma advance_lower (k : ℕ) (p : Position) (cs : List Char) :
    (p.lower k).advance cs = (p.advance cs).lower k := by
  induction cs generalizing p with
  | nil => rfl
  | cons c cs ih => rw [advance_cons, advance_cons, step_lower, ih]

/-- Below a text everything stands one line further down than the line feeds of the text make. -/
lemma advance_start_newline (cs : List Char) :
    (start.advance cs).step '\n' = start.lower (1 + cs.count '\n') := by
  rw [advance_start, step_newline]
  simp only [ofOffset, List.take_length, start, lower, Position.mk.injEq, and_true]
  omega

end Position

/-- A text is cut in the same way wherever it begins. -/
lemma Cuts.lower {p : Position} {cs : List Char} {ts : List Token} (k : ℕ) (h : Cuts p cs ts) :
    Cuts (p.lower k) cs (ts.map (Token.relocate (.lower k))) := by
  induction h with
  | done p => exact .done (p.lower k)
  | skip none _ ih =>
    refine .skip none ?_
    rw [Position.step_lower]
    exact ih
  | token some _ ih =>
    refine .token some ?_
    rw [Position.advance_lower]
    exact ih

/-! ## A line feed behind a token -/

section newline

variable {c : Char} {cs xs : List Char}

lemma munch_newline (cs : List Char) : munch '\n' cs = none :=
  munch_of_isBlank (by decide) cs

lemma pointAhead_append_newline (xs ys : List Char) :
    pointAhead (xs ++ '\n' :: ys) = pointAhead xs := by
  have hblank : Text.isBlank '\n' = true := by decide
  induction xs with
  | nil => simp [pointAhead, hblank]
  | cons x xs ih => rw [List.cons_append, pointAhead, pointAhead, ih]

/-- A block comment that is closed does not depend on what follows. -/
lemma blockLength_append_of_closed (h : ['*', '/'] <:+: xs) (n : ℕ) (ys : List Char) :
    blockLength n (xs ++ ys) = blockLength n xs := by
  induction xs generalizing n with
  | nil => exact absurd (List.infix_nil.mp h) (by simp)
  | cons x xs ih =>
    by_cases hclose : x = '*' ∧ xs.head? = some '/'
    · obtain ⟨rfl, hhead⟩ := hclose
      obtain ⟨xs, rfl⟩ := List.head?_eq_some_iff.mp hhead
      rfl
    · rcases List.infix_cons_iff.mp h with hprefix | hinfix
      · obtain ⟨zs, hzs⟩ := hprefix
        obtain ⟨rfl, rfl⟩ := List.cons.inj hzs
        exact absurd ⟨rfl, rfl⟩ hclose
      · -- it is closed further on, so that there is a character behind `x`
        have hhead : (xs ++ ys).head? = xs.head? := by
          cases xs with
          | nil => exact absurd (List.infix_nil.mp hinfix) (by simp)
          | cons y xs => rfl
        rw [List.cons_append, blockLength_of_open (hhead ▸ hclose), blockLength_of_open hclose]
        exact ih hinfix (n + 1)

/-- A block comment is closed if text is left behind it. -/
lemma blockLength_append_of_closed_or_lt {n : ℕ}
    (h : blockLength n xs < n + xs.length ∨ ['*', '/'] <:+ xs) (ys : List Char) :
    blockLength n (xs ++ ys) = blockLength n xs := by
  rcases h with hlt | hclosed
  · rw [← List.append_nil xs, List.length_append, List.length_nil, Nat.add_zero] at hlt
    have happend := blockLength_append_of_lt hlt ys
    rwa [List.append_nil] at happend
  · exact blockLength_append_of_closed hclosed.isInfix n ys

/-- With a line feed behind the text the same token is taken off, unless it is a block comment up
to the end of the text that is not closed there. -/
lemma Munches.append_newline {kind : TokenKind} {n : ℕ} (h : Munches c cs kind n)
    (hclosed : ∀ body, c = '/' → cs = '*' :: body → n < cs.length ∨ ['*', '/'] <:+ body)
    (ds : List Char) : Munches c (cs ++ '\n' :: ds) kind n := by
  cases h with
  | block body =>
    have hlength : blockLength 1 body < 1 + body.length ∨ ['*', '/'] <:+ body :=
      (hclosed body rfl rfl).imp_left fun hlt => by simpa [Nat.add_comm] using hlt
    rw [← blockLength_append_of_closed_or_lt hlength ('\n' :: ds)]
    exact .block _
  | line body =>
    rw [← takeWhile_append_cons (w := '\n') (by simp) body ds]
    exact .line _
  | word letter =>
    rw [← takeWhile_append_cons (w := '\n') (by decide) cs ds]
    exact .word letter
  | float first point =>
    rw [← takeWhile_append_cons (w := '\n') (by decide) cs ds]
    exact .float first ((pointAhead_append_newline (c :: cs) ds).trans point)
  | integer first point =>
    rw [← takeWhile_append_cons (w := '\n') (by decide) cs ds]
    exact .integer first ((pointAhead_append_newline (c :: cs) ds).trans point)
  | symbol symbol slash =>
    refine .symbol symbol fun hslash => ?_
    cases cs with
    | nil => simp
    | cons d cs => exact slash hslash

end newline

/-! ## The tokens of both texts -/

/-- A block comment that is not closed: it is cut off at `/*`, and it does not end with a `*/`
behind that. -/
def Token.Unterminated (t : Token) : Prop :=
  t.kind = .comment ∧ ['/', '*'] <+: t.lexeme.toList ∧
    (t.lexeme.length < 4 ∨ ¬ ['*', '/'] <:+ t.lexeme.toList)

instance (t : Token) : Decidable t.Unterminated :=
  inferInstanceAs (Decidable (_ ∧ _ ∧ _))

namespace Cuts

variable {p : Position} {cs ds : List Char} {ts us : List Token}

lemma ne_nil (h : Cuts p cs ts) : ts ≠ [] := by
  induction h with
  | done p => exact List.cons_ne_nil _ _
  | skip _ _ ih => exact ih
  | token _ _ _ => exact List.cons_ne_nil _ _

/-- The last token is closed, and so is a comment before it. -/
lemma closed_of_token {c : Char} {kind : TokenKind} {n : ℕ} (hmunch : munch c cs = some (kind, n))
    (hrest : Cuts (p.advance (c :: cs.take n)) (cs.drop n) ts)
    (hlast : ts.dropLast = [] →
      ¬ Token.Unterminated ⟨kind, String.ofList (c :: cs.take n), p⟩) (body : List Char)
    (hc : c = '/') (hcs : cs = '*' :: body) : n < cs.length ∨ ['*', '/'] <:+ body := by
  subst hc hcs
  by_cases hlt : n < ('*' :: body).length
  · exact .inl hlt
  · -- the comment ends with the text, so it is the last token
    right
    have hge : ('*' :: body).length ≤ n := Nat.le_of_not_lt hlt
    rw [List.drop_of_length_le hge] at hrest
    obtain ⟨rfl⟩ : ts = [.endAt (p.advance ('/' :: ('*' :: body).take n))] := by
      cases hrest
      rfl
    have hkind : kind = .comment := by
      rw [munch_block] at hmunch
      exact (Prod.mk.inj (Option.some.inj hmunch)).1.symm
    have hterminated := hlast rfl
    rw [List.take_of_length_le hge] at hterminated
    simp only [Token.Unterminated, hkind, String.toList_ofList, true_and, not_and, not_or,
      Nat.not_lt, not_not, String.length_ofList] at hterminated
    obtain ⟨hlength, hsuffix⟩ := hterminated ⟨body, rfl⟩
    have hbody : body <:+ '/' :: '*' :: body := ⟨['/', '*'], rfl⟩
    refine List.suffix_of_suffix_length_le hsuffix hbody ?_
    simp only [List.length_cons, List.length_nil] at hlength ⊢
    omega

/-- A token that does not go beyond a line feed is taken off in front of one. -/
lemma token_newline {c : Char} {kind : TokenKind} {n : ℕ} (hmunch : munch c cs = some (kind, n))
    (hclosed : ∀ body, c = '/' → cs = '*' :: body → n < cs.length ∨ ['*', '/'] <:+ body)
    (h : Cuts (p.advance (c :: cs.take n)) (cs.drop n ++ '\n' :: ds) ts) :
    Cuts p (c :: (cs ++ '\n' :: ds)) (⟨kind, String.ofList (c :: cs.take n), p⟩ :: ts) := by
  have hmunches := munch_eq_some_iff.mp hmunch
  have hle := hmunches.le_length
  have htake : (cs ++ '\n' :: ds).take n = cs.take n := List.take_append_of_le_length hle
  rw [← List.drop_append_of_le_length hle, ← htake] at h
  rw [← htake]
  exact .token (hmunches.append_newline hclosed ds).munch_eq h

/-- A text with another one below it is cut into the tokens of both. -/
lemma append_newline (h : Cuts p cs ts) (hlast : ∀ t ∈ ts.dropLast.getLast?, ¬ t.Unterminated)
    (hrest : Cuts ((p.advance cs).step '\n') ds us) :
    Cuts p (cs ++ '\n' :: ds) (ts.dropLast ++ us) := by
  induction h with
  | done p => exact .skip (munch_newline ds) hrest
  | skip none _ ih =>
    exact .skip (munch_eq_none_iff.mpr (munch_eq_none_iff.mp none)) (ih hlast hrest)
  | @token p c cs kind n ts some rest ih =>
    rw [List.dropLast_cons_of_ne_nil rest.ne_nil] at hlast ⊢
    have hclosed := closed_of_token some rest fun hnil => hlast _ (by simp [hnil])
    have hcs : c :: cs = c :: cs.take n ++ cs.drop n := by simp
    rw [hcs, Position.advance_append] at hrest
    exact token_newline some hclosed (ih (fun t ht => hlast t (List.mem_getLast?_cons ht)) hrest)

end Cuts

/-- **Texts are cut one after the other.**  If the last token of a text is closed, the tokens of
this text and of another one below it are those of the first without its end marker, and those of
the second further down. -/
theorem tokenize_append_newline {s t : String}
    (h : ∀ u ∈ (tokenize s).dropLast.getLast?, ¬ u.Unterminated) :
    tokenize (s ++ "\n" ++ t) = (tokenize s).dropLast ++
      (tokenize t).map (Token.relocate (.lower (1 + s.toList.count '\n'))) := by
  have hsecond := (Cuts.tokenize t).lower (1 + s.toList.count '\n')
  rw [← Position.advance_start_newline] at hsecond
  have hboth := (Cuts.tokenize s).append_newline h hsecond
  have htoList : (s ++ "\n" ++ t).toList = s.toList ++ '\n' :: t.toList := by simp
  rw [← htoList, Cuts.iff_eq_drain] at hboth
  exact hboth.symm

end Reckon
