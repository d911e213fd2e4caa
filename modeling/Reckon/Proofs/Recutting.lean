/-
# Cutting a text with a blank more

`Cuts.insert_blank` tells all tokens of a text with a blank more from those of the text without it,
if the blank is put where the lexer stops, which it does at the end of each token.  Comments stay
comments, and everything else stays what it is but for the numerals that look for their point across
the blank.  These begin before the blank, and the text has no point between their beginning and the
blank; they become numerals without a point, of the same text.
-/
import Reckon.Proofs.Insertion
import Reckon.Proofs.Offsets
import Reckon.Proofs.Relocation

namespace Reckon

/-! ## Where the lexer stops -/

/-- The lexer stops between two texts: no token of the one followed by the other lies across the
place where they meet. -/
inductive Stops : List Char → List Char → Prop where
  | here (ys : List Char) : Stops [] ys
  | skip {c : Char} {xs ys : List Char} (none : munch c (xs ++ ys) = none) (rest : Stops xs ys) :
      Stops (c :: xs) ys
  | token {c : Char} {text xs ys : List Char} {kind : TokenKind}
      (some : munch c (text ++ (xs ++ ys)) = some (kind, text.length)) (rest : Stops xs ys) :
      Stops (c :: (text ++ xs)) ys

/-- If a token with a point begins before the character number `b`, the text has a point between its
beginning and that character. -/
def Token.Pointed (t : Token) (cs : List Char) (b : ℕ) : Prop :=
  t.kind = .float → ∀ o < b, t.position = .ofOffset cs o → '.' ∈ (cs.take b).drop o

instance (t : Token) (cs : List Char) (b : ℕ) : Decidable (t.Pointed cs b) :=
  inferInstanceAs (Decidable (_ → ∀ o < b, _ → _))

lemma Token.pointed_iff {kind : TokenKind} {lexeme : String} {before xs ys : List Char}
    (hne : xs ≠ []) :
    (⟨kind, lexeme, .ofOffset (before ++ (xs ++ ys)) before.length⟩ : Token).Pointed
      (before ++ (xs ++ ys)) (before.length + xs.length) ↔ (kind = .float → '.' ∈ xs) := by
  have hpos : 0 < xs.length := List.length_pos_iff.mpr hne
  have hpiece : ((before ++ (xs ++ ys)).take (before.length + xs.length)).drop before.length =
      xs := by
    simp [List.drop_take]
  constructor
  · intro h hkind
    rw [← hpiece]
    exact h hkind before.length (Nat.lt_add_of_pos_right hpos) rfl
  · intro h hkind o ho hplace
    have hlength : (before ++ (xs ++ ys)).length = before.length + (xs.length + ys.length) := by
      simp
    obtain rfl := Position.ofOffset_inj (by omega) (by omega) hplace
    rw [hpiece]
    exact h hkind

namespace Cuts

variable {p q : Position} {c w : Char} {cs text : List Char} {ts us : List Token}

/-- The tokens of a text are alike wherever it stands. -/
lemma alike (h : Cuts p cs ts) (h' : Cuts q cs us) : List.Forall₂ Token.Alike ts us := by
  induction h generalizing q us with
  | done p =>
    cases h' with
    | done q => exact .cons ⟨rfl, fun _ => rfl⟩ .nil
  | skip none _ ih => exact ih (h'.of_munch_eq_none none)
  | token some _ ih =>
    cases h' with
    | skip none _ => exact absurd (none.symm.trans some) (by simp)
    | token some' rest' =>
      obtain ⟨rfl, rfl⟩ := Prod.mk.inj (Option.some.inj (some.symm.trans some'))
      exact .cons ⟨rfl, fun _ => rfl⟩ (ih rest')

/-- Tokens that begin later do not count. -/
lemma pointed_of_le {b : ℕ} (hb : b ≤ cs.length) {rest : List Char}
    (h : Cuts (.ofOffset cs b) rest ts) : ∀ t ∈ ts, t.Pointed cs b := by
  intro t ht _ o ho hplace
  have hbefore := Position.ofOffset_before ho hb
  rw [← hplace] at hbefore
  rcases h.eq_or_before t ht with heq | hlater
  · exact absurd (heq ▸ hbefore) (Position.Before.irrefl _)
  · exact absurd (hbefore.trans hlater) (Position.Before.irrefl _)

/-- Behind a comment the text is cut as before. -/
lemma of_comment {rest : List Char} (h : Cuts q (c :: (text ++ w :: rest)) us)
    (hmunch : munch c (text ++ rest) = some (.comment, text.length))
    (hw : Text.isBlank w = true) :
    ∃ lexeme q' us', us = ⟨.comment, lexeme, q⟩ :: us' ∧ Cuts q' rest us' := by
  rcases (munch_eq_some_iff.mp hmunch).insert_blank_of_comment hw with hsame | hmore
  · obtain ⟨us', rfl, hrest⟩ := h.of_munch_eq_some hsame.munch_eq
    exact ⟨_, _, us', rfl, hrest.of_munch_eq_none (munch_of_isBlank hw _)⟩
  · have htext : text ++ w :: rest = (text ++ [w]) ++ rest := by simp
    rw [htext] at h hmore
    have hlength : text.length + 1 = (text ++ [w]).length := by simp
    rw [hlength] at hmore
    obtain ⟨us', rfl, hrest⟩ := h.of_munch_eq_some hmore.munch_eq
    exact ⟨_, _, us', rfl, hrest⟩

end Cuts

/-- What becomes of a token when a blank is put before the character number `b`: it stays as it is,
and its text only is another one if it is a comment, or it becomes a numeral without a point. -/
structure Token.Becomes (cs : List Char) (b : ℕ) (t u : Token) : Prop where
  alike : t.Pointed cs b → t.Alike u
  integer : ¬ t.Pointed cs b → u.kind = .integer ∧ u.lexeme = t.lexeme

lemma Token.forall₂_becomes {cs : List Char} {b : ℕ} {ts us : List Token}
    (h : List.Forall₂ Alike ts us) (hpointed : ∀ t ∈ ts, t.Pointed cs b) :
    List.Forall₂ (Becomes cs b) ts us :=
  ((List.forall₂_and_left ts us).mpr ⟨hpointed, h⟩).imp fun _ _ ⟨hpointed, halike⟩ =>
    ⟨fun _ => halike, fun hnot => absurd hpointed hnot⟩

namespace Cuts

variable {c w : Char} {text xs ys before cs : List Char} {b : ℕ} {q : Position}
  {ts us : List Token}

/-- A token that ends before the blank, or with it if it is no comment. -/
lemma exists_becomes {kind : TokenKind} (hw : Text.isBlank w = true)
    (hmunch : munch c (text ++ (xs ++ ys)) = some (kind, text.length))
    (hcomment : kind = .comment → xs ≠ []) (hcs : cs = before ++ (c :: (text ++ xs) ++ ys))
    (hb : b = before.length + (c :: (text ++ xs)).length)
    (h' : Cuts q (c :: (text ++ (xs ++ w :: ys))) us) :
    ∃ u q' us', us = u :: us' ∧ Cuts q' (xs ++ w :: ys) us' ∧
      Token.Becomes cs b ⟨kind, String.ofList (c :: text), .ofOffset cs before.length⟩ u := by
  have hpointed : Token.Pointed ⟨kind, String.ofList (c :: text), .ofOffset cs before.length⟩ cs b ↔
      (kind = .float → '.' ∈ c :: (text ++ xs)) := by
    rw [hcs, hb]
    exact Token.pointed_iff (List.cons_ne_nil c (text ++ xs))
  have hinside : kind = .comment → text.length < (text ++ xs).length := by
    intro hkind
    have hpos : 0 < xs.length := List.length_pos_iff.mpr (hcomment hkind)
    rw [List.length_append]
    omega
  have hmunches := munch_eq_some_iff.mp hmunch
  rw [← List.append_assoc] at hmunches
  rcases hmunches.insert_blank hw (by simp) hinside with ⟨hsame, hpoint⟩ | ⟨rfl, hno, hinteger⟩
  · rw [List.append_assoc] at hsame
    obtain ⟨us', rfl, hrest⟩ := h'.of_munch_eq_some hsame.munch_eq
    exact ⟨_, _, us', rfl, hrest, fun _ => ⟨rfl, fun _ => rfl⟩,
      fun hnot => absurd (hpointed.mpr hpoint) hnot⟩
  · rw [List.append_assoc] at hinteger
    obtain ⟨us', rfl, hrest⟩ := h'.of_munch_eq_some hinteger.munch_eq
    exact ⟨_, _, us', rfl, hrest, fun h => absurd (hpointed.mp h rfl) hno, fun _ => ⟨rfl, rfl⟩⟩

/-- The tokens of a text with a blank at a place where the lexer stops. -/
theorem insert_blank (hw : Text.isBlank w = true) (hstops : Stops xs ys)
    (hcs : cs = before ++ (xs ++ ys)) (hb : b = before.length + xs.length)
    (h : Cuts (.ofOffset cs before.length) (xs ++ ys) ts) (h' : Cuts q (xs ++ w :: ys) us) :
    List.Forall₂ (Token.Becomes cs b) ts us := by
  -- `before` is what has been cut off already, and its length tells the places of the old tokens;
  -- those of the new ones are left open
  induction hstops generalizing before q ts us with
  | here ys =>
    have hle : b ≤ cs.length := by simp [hcs, hb]
    subst hb
    exact Token.forall₂_becomes (h.alike (h'.of_munch_eq_none (munch_of_isBlank hw _)))
      (h.pointed_of_le hle)
  | @skip c xs ys none _ ih =>
    have hnone : munch c (xs ++ w :: ys) = Option.none :=
      munch_eq_none_iff.mpr (munch_eq_none_iff.mp none)
    have hplace : (Position.ofOffset cs before.length).step c =
        .ofOffset cs (before ++ [c]).length :=
      Position.advance_ofOffset (show cs = before ++ ([c] ++ (xs ++ ys)) from hcs)
    have hnext := h.of_munch_eq_none none
    rw [hplace] at hnext
    have hcs' : cs = (before ++ [c]) ++ (xs ++ ys) := by simp [hcs]
    have hb' : b = (before ++ [c]).length + xs.length := by
      simp only [hb, List.length_append, List.length_cons, List.length_nil]
      omega
    exact ih hcs' hb' hnext (h'.of_munch_eq_none hnone)
  | @token c text xs ys kind some rest ih =>
    have hplace : (Position.ofOffset cs before.length).advance (c :: text) =
        .ofOffset cs (before ++ c :: text).length :=
      Position.advance_ofOffset (show cs = before ++ (c :: text ++ (xs ++ ys)) by simp [hcs])
    rw [List.cons_append, List.append_assoc] at h h'
    obtain ⟨ts', rfl, hnext⟩ := h.of_munch_eq_some some
    rw [hplace] at hnext
    have hcs' : cs = (before ++ c :: text) ++ (xs ++ ys) := by simp [hcs]
    have hb' : b = (before ++ c :: text).length + xs.length := by
      simp only [hb, List.length_append, List.length_cons]
      omega
    by_cases hlast : kind = .comment ∧ xs = []
    · -- the comment may take the blank in, so that the rest does not begin with it
      obtain ⟨rfl, rfl⟩ := hlast
      obtain ⟨lexeme, q', us', rfl, hnext'⟩ := h'.of_comment some hw
      have hle : (before ++ c :: text).length ≤ cs.length := by simp [hcs]
      obtain rfl : b = (before ++ c :: text).length := hb'
      exact .cons ⟨fun _ => ⟨rfl, fun hne => absurd rfl hne⟩, fun hnot => absurd nofun hnot⟩
        (Token.forall₂_becomes (hnext.alike hnext') (hnext.pointed_of_le hle))
    · obtain ⟨u, q', us', rfl, hnext', hbecomes⟩ :=
        exists_becomes hw some (fun hkind hnil => hlast ⟨hkind, hnil⟩) hcs hb h'
      exact .cons hbecomes (ih hcs' hb' hnext hnext')

end Cuts

/-! ## Where tokens end -/

/-- The lexer stops at the end of each token. -/
lemma Cuts.exists_stops {p : Position} {cs : List Char} {ts : List Token} (h : Cuts p cs ts)
    {t : Token} (ht : t ∈ ts) (hkind : t.kind ≠ .eof) :
    ∃ gap ys, cs = gap ++ (t.lexeme.toList ++ ys) ∧ t.position = p.advance gap ∧
      Stops (gap ++ t.lexeme.toList) ys := by
  induction h with
  | done p =>
    obtain rfl := List.mem_singleton.mp ht
    exact absurd rfl hkind
  | @skip p c cs ts none _ ih =>
    obtain ⟨gap, ys, rfl, hposition, hstops⟩ := ih ht
    rw [← List.append_assoc] at none
    exact ⟨c :: gap, ys, rfl, hposition, .skip none hstops⟩
  | @token p c cs kind n ts some _ ih =>
    have hmunch : munch c (cs.take n ++ cs.drop n) = Option.some (kind, (cs.take n).length) := by
      rw [List.take_append_drop, List.length_take,
        Nat.min_eq_left (munch_eq_some_iff.mp some).le_length]
      exact some
    rcases List.mem_cons.mp ht with rfl | ht
    · -- the token itself: nothing is skipped before it, and nothing is left after it
      have hstops : Stops (c :: (cs.take n ++ [])) (cs.drop n) := .token hmunch (.here _)
      exact ⟨[], cs.drop n, by simp, rfl, by simpa using hstops⟩
    · obtain ⟨gap, ys, hrest, hposition, hstops⟩ := ih ht
      rw [hrest, ← List.append_assoc gap] at hmunch
      refine ⟨c :: (cs.take n ++ gap), ys, ?_, by simpa using hposition, ?_⟩
      · rw [List.cons_append, List.append_assoc, ← hrest, List.take_append_drop]
      · rw [List.cons_append, List.append_assoc]
        exact .token hmunch hstops

end Reckon
