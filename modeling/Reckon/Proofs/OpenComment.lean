/-
# A comment that goes on below

If the last token of a text is a block comment that is not closed, a text below it does not begin
with its own tokens: the comment goes on there, up to the first `*/` or to the end.  What stands
before the comment is cut as it is without the second text, and what is left of the second text
behind the comment is cut from there on.

Together with the case of a last token that is closed this says what becomes of the tokens of any
two texts one below the other, programs or not: `tokenize_newline_between`.
-/
import Reckon.Proofs.Rules
import Reckon.Proofs.Seam

namespace Reckon

/-! ## Where an open comment ends -/

section body

variable {body ds : List Char}

/-- Behind a text without `*/` and a line feed, each `*/` is one of what follows. -/
lemma exists_eq_of_closes_behind (never : ∀ before after, body ≠ before ++ '*' :: '/' :: after)
    {before after : List Char} (h : body ++ '\n' :: ds = before ++ '*' :: '/' :: after) :
    ∃ later, before = body ++ '\n' :: later ∧ ds = later ++ '*' :: '/' :: after := by
  induction body generalizing before with
  | nil =>
    cases before with
    | nil => exact absurd (List.cons.inj h).1 (by decide)
    | cons c before =>
      obtain ⟨rfl, rfl⟩ := List.cons.inj h
      exact ⟨before, rfl, rfl⟩
  | cons c body ih =>
    cases before with
    | nil =>
      obtain ⟨rfl, htail⟩ := List.cons.inj h
      cases body with
      | nil => exact absurd (List.cons.inj htail).1 (by decide)
      | cons d body =>
        obtain ⟨rfl, -⟩ := List.cons.inj htail
        exact absurd rfl (never [] body)
    | cons d before =>
      obtain ⟨rfl, htail⟩ := List.cons.inj h
      have hnever : ∀ before after, body ≠ before ++ '*' :: '/' :: after := by
        rintro before after rfl
        exact never (_ :: before) after rfl
      obtain ⟨later, rfl, hds⟩ := ih hnever htail
      exact ⟨later, rfl, hds⟩

/-- A comment that is not closed takes the line feed behind it and what follows that, up to the
first `*/`. -/
lemma exists_takes_below (never : ∀ before after, body ≠ before ++ '*' :: '/' :: after)
    (ds : List Char) : ∃ more rest, ds = more ++ rest ∧
      LexRule.block.Takes .comment ('/' :: '*' :: (body ++ '\n' :: more)) rest := by
  rcases blockLength_cases 0 ds with ⟨first, rest, rfl, hfirst, -⟩ | ⟨hnever, -⟩
  · refine ⟨first ++ ['*', '/'], rest, by simp, ?_⟩
    have hbody : body ++ '\n' :: (first ++ ['*', '/']) =
        body ++ '\n' :: first ++ ['*', '/'] := by
      simp
    rw [hbody]
    refine .closed fun before after heq => ?_
    rw [List.append_assoc, List.cons_append] at heq
    obtain ⟨later, rfl, hds⟩ := exists_eq_of_closes_behind never heq
    have hle := hfirst later after hds
    simp only [List.length_append, List.length_cons]
    omega
  · refine ⟨ds, [], by simp, .unclosed fun before after heq => ?_⟩
    obtain ⟨later, -, hds⟩ := exists_eq_of_closes_behind never heq
    exact hnever later after hds

end body

/-! ## The tokens of both texts -/

/-- A block comment that is not closed has no `*/` behind its `/*`, and it takes all of the text. -/
lemma Token.Unterminated.exists_body {c : Char} {cs : List Char} {kind : TokenKind} {n : ℕ}
    {p : Position} (hmunch : munch c cs = some (kind, n))
    (h : Token.Unterminated ⟨kind, String.ofList (c :: cs.take n), p⟩) :
    kind = .comment ∧ ∃ body, c = '/' ∧ cs = '*' :: body ∧ n = cs.length ∧
      ∀ before after, body ≠ before ++ '*' :: '/' :: after := by
  obtain ⟨rfl, hstart, hopen⟩ := h
  simp only [String.toList_ofList, String.length_ofList] at hstart hopen
  obtain ⟨rfl, hstar⟩ := List.cons_prefix_cons.mp hstart
  obtain ⟨tail, htail⟩ := hstar
  obtain ⟨body, rfl⟩ : ∃ body, cs = '*' :: body := by
    refine ⟨tail ++ cs.drop n, ?_⟩
    rw [← List.cons_append, ← List.singleton_append, htail, List.take_append_drop]
  rw [munch_block] at hmunch
  obtain ⟨-, rfl⟩ := Prod.mk.inj (Option.some.inj hmunch)
  rcases blockLength_cases 1 body with ⟨inner, rest, rfl, -, hlength⟩ | ⟨never, hlength⟩
  · -- a comment with a `*/` ends with it
    exfalso
    have htake : ('*' :: (inner ++ '*' :: '/' :: rest)).take (1 + inner.length + 2) =
        '*' :: inner ++ ['*', '/'] := by
      rw [Nat.add_comm 1, Nat.add_right_comm, List.take_succ_cons, List.take_length_add_append]
      rfl
    rw [hlength, htake] at hopen
    rcases hopen with hshort | hsuffix
    · simp only [List.cons_append, List.length_cons, List.length_append] at hshort
      omega
    · exact hsuffix ⟨'/' :: '*' :: inner, rfl⟩
  · refine ⟨rfl, body, rfl, rfl, ?_, never⟩
    rw [hlength, List.length_cons, Nat.add_comm]

namespace Cuts

variable {p : Position} {cs : List Char} {ts : List Token}

/-- A text with another one below it is cut into the tokens of the first up to a comment that is not
closed, this comment with what it takes of the second text, and what is left of that. -/
lemma append_open (h : Cuts p cs ts) {init : List Token} {u : Token}
    (hts : ts.dropLast = init ++ [u]) (hu : u.Unterminated) (ds : List Char) :
    ∃ more rest, ds = more ++ rest ∧
      LexRule.block.Takes .comment (u.lexeme.toList ++ '\n' :: more) rest ∧
      ∀ us, Cuts (u.position.advance (u.lexeme.toList ++ '\n' :: more)) rest us →
        Cuts p (cs ++ '\n' :: ds) (init ++
          ⟨.comment, String.ofList (u.lexeme.toList ++ '\n' :: more), u.position⟩ :: us) := by
  induction h generalizing init with
  | done p => exact absurd hts (by simp)
  | skip none _ ih =>
    obtain ⟨more, rest, hds, htakes, hcuts⟩ := ih hts
    refine ⟨more, rest, hds, htakes, fun us hus => ?_⟩
    exact .skip (munch_eq_none_iff.mpr (munch_eq_none_iff.mp none)) (hcuts us hus)
  | @token p c cs kind n ts some rest ih =>
    rw [List.dropLast_cons_of_ne_nil rest.ne_nil] at hts
    cases init with
    | nil =>
      -- the comment is the last token
      obtain ⟨rfl, -⟩ := List.cons.inj hts
      obtain ⟨rfl, body, rfl, rfl, rfl, never⟩ := hu.exists_body some
      obtain ⟨more, rest, rfl, htakes⟩ := exists_takes_below never ds
      rw [List.take_length]
      simp only [String.toList_ofList]
      refine ⟨more, rest, rfl, htakes, fun us hus => ?_⟩
      have hgoes := LexRule.goes_block (body ++ '\n' :: more ++ rest)
      obtain ⟨c, text, htext, hmunches⟩ := htakes.munches hgoes
      obtain ⟨rfl, rfl⟩ := List.cons.inj htext
      have hcuts := Cuts.token_append hmunches.munch_eq hus
      simpa using hcuts
    | cons t init =>
      obtain ⟨rfl, htail⟩ := List.cons.inj hts
      obtain ⟨more, rest', hds, htakes, hcuts⟩ := ih htail
      refine ⟨more, rest', hds, htakes, fun us hus => ?_⟩
      have hclosed := closed_of_token some rest fun hnil => absurd (htail.symm.trans hnil) (by simp)
      exact token_newline some hclosed (hcuts us hus)

end Cuts

/-- **Any two texts one below the other.**

* If the last token of the first is no block comment that is not closed, the tokens are those of the
  first without its end marker, and those of the second further down by the lines of the first.
* If it is one, the tokens before it are the same.  It is followed by a comment at its place, which
  is what the rule for block comments takes off: the old one, the line feed, and the second text up
  to the first `*/` or to its end.  The rest of the second text is cut from behind the comment. -/
theorem tokenize_newline_between (s t : String) :
    ((∀ u ∈ (tokenize s).dropLast.getLast?, ¬ u.Unterminated) →
      tokenize (s ++ "\n" ++ t) = (tokenize s).dropLast ++
        (tokenize t).map (Token.relocate (.lower (1 + s.toList.count '\n')))) ∧
    ∀ init u, (tokenize s).dropLast = init ++ [u] → u.Unterminated →
      ∃ more rest, t.toList = more ++ rest ∧
        LexRule.block.Takes .comment (u.lexeme.toList ++ '\n' :: more) rest ∧
        tokenize (s ++ "\n" ++ t) = init ++
          ⟨.comment, String.ofList (u.lexeme.toList ++ '\n' :: more), u.position⟩ ::
            Scanner.drain ⟨rest, u.position.advance (u.lexeme.toList ++ '\n' :: more)⟩ [] := by
  refine ⟨tokenize_append_newline, fun init u hts hu => ?_⟩
  obtain ⟨more, rest, hds, htakes, hcuts⟩ := (Cuts.tokenize s).append_open hts hu t.toList
  have htoList : (s ++ "\n" ++ t).toList = s.toList ++ '\n' :: t.toList := by simp
  have hboth := hcuts _ (.drain _ rest)
  rw [← htoList, Cuts.iff_eq_drain] at hboth
  exact ⟨more, rest, hds, htakes, hboth.symm⟩

/-- The comment of `1 /* a` takes the line below it up to the `*/` there. -/
theorem tokenize_newline_between_comment :
    let u : Token := ⟨.comment, "/* a", ⟨1, 3⟩⟩
    (tokenize "1 /* a").dropLast = [⟨.integer, "1", ⟨1, 1⟩⟩] ++ [u] ∧ u.Unterminated ∧
      ∃ more rest, "b */ 2".toList = more ++ rest ∧
        LexRule.block.Takes .comment (u.lexeme.toList ++ '\n' :: more) rest ∧
        tokenize ("1 /* a" ++ "\n" ++ "b */ 2") = [⟨.integer, "1", ⟨1, 1⟩⟩] ++
          ⟨.comment, String.ofList (u.lexeme.toList ++ '\n' :: more), u.position⟩ ::
            Scanner.drain ⟨rest, u.position.advance (u.lexeme.toList ++ '\n' :: more)⟩ [] := by
  intro u
  have htokens : (tokenize "1 /* a").dropLast = [⟨.integer, "1", ⟨1, 1⟩⟩] ++ [u] := by
    decide +kernel
  have hopen : u.Unterminated := by decide
  exact ⟨htokens, hopen, (tokenize_newline_between "1 /* a" "b */ 2").2 _ u htokens hopen⟩

end Reckon
