/-
# Cursors stay in their text

The reading by offsets, `Cursor.next?`, gives no result where it would take a character or a slice
that the text does not have, and where a column would be negative.  Here it is shown that this never
comes about, whatever the text and however often a token is asked for.

What carries this is `Cursor.Valid`: the offset is one of the text or its end, the line is one more
than the line feeds before the offset, and the last of these is the line feed that the cursor
remembers.  Each way of moving on keeps it: by one character, `Valid.step`, along a run of
characters, `Valid.runEnd`, and over a comment with line feeds in it, `Valid.feeds?`.  A valid
cursor reads what the lexer reads from the same place on, and it moves on unless the text is at its
end, `Valid.next?`.
-/
import Mathlib.Data.List.TakeWhile
import Reckon.Proofs.Insertion
import Reckon.Proofs.Offsets
import Reckon.Token.Cursor

namespace Reckon

/-- A text has at most one token for each character and the end marker. -/
lemma Cuts.length_le {p : Position} {cs : List Char} {ts : List Token} (h : Cuts p cs ts) :
    ts.length ≤ cs.length + 1 := by
  induction h with
  | done p => exact Nat.le_refl 1
  | skip _ _ ih => exact Nat.le_succ_of_le ih
  | token _ _ ih =>
    simp only [List.length_cons, List.length_drop] at ih ⊢
    omega

namespace Cursor

/-! ## Valid cursors -/

/-- The last line feed among the first `n` characters of a text, if there is one. -/
def IsLastFeed (cs : List Char) (n : ℕ) : Option ℕ → Prop
  | some o => o < n ∧ cs[o]? = some '\n' ∧ ∀ i, o < i → i < n → cs[i]? ≠ some '\n'
  | none => ∀ i < n, cs[i]? ≠ some '\n'

/-- A cursor is valid in a text if what it says about the part that has been read is so. -/
structure Valid (cs : List Char) (k : Cursor) : Prop where
  index_le : k.index ≤ cs.length
  line : k.line = 1 + (cs.take k.index).count '\n'
  lastFeed : IsLastFeed cs k.index k.lastFeed

variable {cs : List Char} {k : Cursor} {i n o : ℕ} {c : Char} {p : Char → Bool}

@[simp]
lemma index_jump (k : Cursor) (i : ℕ) : (k.jump i).index = i := rfl

@[simp]
lemma place?_jump (k : Cursor) (i o : ℕ) : (k.jump i).place? o = k.place? o := rfl

lemma Valid.start (cs : List Char) : Valid cs start where
  index_le := Nat.zero_le _
  line := rfl
  lastFeed _ hi := absurd hi (Nat.not_lt_zero _)

lemma IsLastFeed.succ {feed : Option ℕ} (h : IsLastFeed cs n feed) (hn : cs[n]? ≠ some '\n') :
    IsLastFeed cs (n + 1) feed := by
  have hlater : ∀ i, i < n + 1 → (i < n → cs[i]? ≠ some '\n') → cs[i]? ≠ some '\n' := by
    intro i hi hbefore
    rcases Nat.lt_succ_iff_lt_or_eq.mp hi with hlt | rfl
    · exact hbefore hlt
    · exact hn
  cases feed with
  | none => exact fun i hi => hlater i hi (h i)
  | some o => exact ⟨Nat.lt_succ_of_lt h.1, h.2.1, fun i ho hi => hlater i hi (h.2.2 i ho)⟩

/-- Reading one character. -/
lemma Valid.step (h : Valid cs (k.jump i)) (hc : cs[i]? = some c) :
    Valid cs ((if c = '\n' then k.feed i else k).jump (i + 1)) := by
  have hlt : i < cs.length := (List.getElem?_eq_some_iff.mp hc).1
  have htake : cs.take (i + 1) = cs.take i ++ [c] := by
    rw [List.take_add_one, hc]
    rfl
  by_cases hfeed : c = '\n'
  · subst hfeed
    rw [if_pos rfl]
    refine ⟨hlt, ?_, Nat.lt_succ_self i, hc, fun j hij hj => absurd hj (Nat.not_lt.mpr hij)⟩
    have hline := h.line
    simp only [jump, feed, htake, List.count_append, List.count_singleton_self] at hline ⊢
    omega
  · rw [if_neg hfeed]
    refine ⟨hlt, ?_, h.lastFeed.succ (by simpa [jump, hc] using hfeed)⟩
    have hline := h.line
    simpa [jump, htake, hfeed] using hline

/-- The characters behind the last line feed. -/
lemma IsLastFeed.column (h : IsLastFeed cs n (some o)) (hn : n ≤ cs.length) :
    ((cs.take n).reverse.takeWhile (· ≠ '\n')).length + 1 = n - o := by
  obtain ⟨hlt, hfeed, hlater⟩ := h
  have hsplit : cs.take n = cs.take o ++ '\n' :: (cs.take n).drop (o + 1) := by
    obtain ⟨ho, hget⟩ := List.getElem?_eq_some_iff.mp hfeed
    have hlength : o < (cs.take n).length := by
      rw [List.length_take]
      omega
    conv_lhs => rw [← List.take_append_drop o (cs.take n)]
    rw [List.take_take, Nat.min_eq_left (Nat.le_of_lt hlt), List.drop_eq_getElem_cons hlength,
      List.getElem_take, hget]
  have hrest : ∀ d ∈ ((cs.take n).drop (o + 1)).reverse, decide (d ≠ '\n') = true := by
    intro d hd
    obtain ⟨j, hj⟩ := List.mem_iff_getElem?.mp (List.mem_reverse.mp hd)
    rw [List.getElem?_drop, List.getElem?_take] at hj
    split_ifs at hj with hlt
    rw [decide_eq_true_iff]
    rintro rfl
    exact hlater _ (by omega) hlt hj
  rw [hsplit, List.reverse_append, List.reverse_cons, List.append_assoc,
    List.takeWhile_append_of_pos hrest]
  simp only [List.singleton_append, List.length_append, List.length_reverse, List.length_drop,
    List.length_take]
  rw [List.takeWhile_cons_of_neg (by simp)]
  simp only [List.length_nil]
  omega

/-- The column of a valid cursor is not negative, and its place is the right one. -/
lemma Valid.place (h : Valid cs k) : k.place? k.index = some (.ofOffset cs k.index) := by
  obtain ⟨index, line, feed⟩ := k
  obtain ⟨hindex, hline, hfeed⟩ := h
  simp only at hindex hline hfeed
  unfold place? Position.ofOffset
  rw [hline]
  cases feed with
  | some o =>
    rw [hfeed.column hindex]
    exact if_pos (Nat.le_of_lt hfeed.1)
  | none =>
    rw [List.takeWhile_eq_self_iff.mpr, List.length_reverse, List.length_take,
      Nat.min_eq_left hindex]
    intro d hd
    obtain ⟨j, hj⟩ := List.mem_iff_getElem?.mp (List.mem_reverse.mp hd)
    rw [List.getElem?_take] at hj
    split_ifs at hj with hlt
    rw [decide_eq_true_iff]
    rintro rfl
    exact hfeed j hlt hj

/-! ## Moving over several characters -/

lemma drop_of_getElem? (hc : cs[i]? = some c) : cs.drop i = c :: cs.drop (i + 1) := by
  obtain ⟨hlt, rfl⟩ := List.getElem?_eq_some_iff.mp hc
  exact List.drop_eq_getElem_cons hlt

lemma runEnd_eq (cs : List Char) (p : Char → Bool) (i : ℕ) :
    runEnd cs p i = i + ((cs.drop i).takeWhile p).length := by
  fun_induction runEnd cs p i with
  | case1 i c hc hp ih =>
    rw [ih, drop_of_getElem? hc, List.takeWhile_cons_of_pos hp, List.length_cons]
    omega
  | case2 i c hc hp =>
    rw [drop_of_getElem? hc, List.takeWhile_cons_of_neg (by simpa using hp)]
    rfl
  | case3 i hc =>
    rw [List.drop_eq_nil_of_le (List.getElem?_eq_none_iff.mp hc)]
    rfl

/-- A run has no line feed in it, so that only the offset changes. -/
lemma Valid.runEnd (hp : p '\n' = false) (h : Valid cs (k.jump i)) :
    Valid cs (k.jump (runEnd cs p i)) := by
  fun_induction Cursor.runEnd cs p i with
  | case1 i c hc hpc ih =>
    have hfeed : c ≠ '\n' := by
      rintro rfl
      exact absurd hpc (by simp [hp])
    have hstep := h.step hc
    rw [if_neg hfeed] at hstep
    exact ih hstep
  | case2 | case3 => exact h

/-- Counting the line feeds of a part that the text has. -/
lemma Valid.feeds? {last : ℕ} (h : Valid cs (k.jump i)) (hle : i ≤ last)
    (hlast : last ≤ cs.length) :
    ∃ k', feeds? cs k i last = some k' ∧ Valid cs (k'.jump last) := by
  fun_induction Cursor.feeds? cs k i last with
  | case1 k i hlt c hc ih =>
    have hstep := h.step hc
    exact ih hstep (by omega)
  | case2 k i hlt hc =>
    rw [List.getElem?_eq_none_iff] at hc
    omega
  | case3 k i hlt =>
    obtain rfl : i = last := by omega
    exact ⟨k, rfl, h⟩

lemma blockLength_add (m n : ℕ) (cs : List Char) :
    blockLength (m + n) cs = m + blockLength n cs := by
  fun_induction blockLength n cs with
  | case1 n cs => rfl
  | case2 n c cs hopen ih => rw [blockLength.eq_2 _ _ _ hopen, ← ih, Nat.add_assoc]
  | case3 n => rfl

/-- The two ways of looking for the end of a comment agree. -/
lemma commentEnd?_eq (hi : i ≤ cs.length) :
    commentEnd? cs i = some (blockLength i (cs.drop i)) := by
  fun_induction commentEnd? cs i with
  | case1 i hlt c d hd hc hclose =>
    obtain ⟨rfl, rfl⟩ := hclose
    rw [drop_of_getElem? hc, drop_of_getElem? hd]
    rfl
  | case2 i hlt c d hd hc hopen ih =>
    rw [ih (Nat.le_of_lt hlt), drop_of_getElem? hc, blockLength_of_open]
    rintro ⟨hstar, hslash⟩
    rw [List.head?_drop, hd] at hslash
    exact hopen ⟨hstar, Option.some.inj hslash⟩
  | case3 i hlt hnone =>
    have hc := List.getElem?_eq_getElem (Nat.lt_of_succ_lt hlt)
    exact (hnone _ _ hc (List.getElem?_eq_getElem hlt)).elim
  | case4 i hlt =>
    -- at most one character is left, which closes nothing
    rcases Nat.eq_or_lt_of_le hi with rfl | hlt'
    · rw [List.drop_length]
      rfl
    · have hlast : i + 1 = cs.length := by omega
      rw [drop_of_getElem? (List.getElem?_eq_getElem hlt'), hlast, List.drop_length,
        blockLength_of_open (by simp), hlast]
      rfl

/-! ## Reading a token -/

lemma slice?_eq (h : i + n ≤ cs.length) : slice? cs i (i + n) = some ((cs.drop i).take n) := by
  rw [slice?, if_pos ⟨Nat.le_add_right i n, h⟩, Nat.add_sub_cancel_left]

/-- The next `n` characters are found to be a token of a kind, and the cursor behind them is
valid. -/
def Reads (cs : List Char) (k : Cursor) (kind : TokenKind) (n : ℕ)
    (found : Option (Token × Cursor)) : Prop :=
  ∃ k', found = some (⟨kind, String.ofList ((cs.drop k.index).take n), .ofOffset cs k.index⟩, k') ∧
    k'.index = k.index + n ∧ Valid cs k'

lemma Valid.run? (h : Valid cs k) (hp : p '\n' = false) (kind : List Char → TokenKind) :
    Reads cs k (kind ((cs.drop k.index).takeWhile p)) ((cs.drop k.index).takeWhile p).length
      (run? cs k p kind) := by
  have hvalid : Valid cs (k.jump (Cursor.runEnd cs p k.index)) := h.runEnd hp
  have htake : (cs.drop k.index).take ((cs.drop k.index).takeWhile p).length =
      (cs.drop k.index).takeWhile p :=
    (List.prefix_iff_eq_take.mp (List.takeWhile_prefix p)).symm
  have hslice := slice?_eq (runEnd_eq cs p k.index ▸ hvalid.index_le)
  rw [← runEnd_eq, htake] at hslice
  refine ⟨k.jump (Cursor.runEnd cs p k.index), ?_, runEnd_eq cs p k.index, hvalid⟩
  simp [Cursor.run?, hslice, h.place, htake]

lemma Valid.block? {rest : List Char} (h : Valid cs k)
    (hdrop : cs.drop k.index = '/' :: '*' :: rest) :
    Reads cs k .comment (blockLength 1 rest + 1) (block? cs k) := by
  have hrest : cs.drop (k.index + 2) = rest := by
    rw [← List.drop_drop, hdrop]
    rfl
  have hlength : cs.length = k.index + (rest.length + 2) := by
    have heq := congrArg List.length hdrop
    have hle := h.index_le
    simp only [List.length_drop, List.length_cons] at heq
    omega
  have hlast : commentEnd? cs (k.index + 2) = some (k.index + (blockLength 1 rest + 1)) := by
    rw [commentEnd?_eq (by omega), hrest, ← Nat.add_assoc k.index, Nat.add_right_comm,
      ← blockLength_add]
  have hle : k.index + (blockLength 1 rest + 1) ≤ cs.length := by
    have := blockLength_le 1 rest
    omega
  obtain ⟨k', hfeeds, hvalid⟩ := h.feeds? (Nat.le_add_right _ _) hle
  refine ⟨_, ?_, rfl, hvalid⟩
  simp [Cursor.block?, h.place, hlast, hfeeds, slice?_eq hle]

lemma hasPair_iff {d e : Char} {rest : List Char} (hdrop : cs.drop i = c :: rest) :
    hasPair cs i d e = true ↔ c = d ∧ rest.head? = some e := by
  have hfirst : cs[i]? = some c := by
    rw [← List.head?_drop, hdrop]
    rfl
  have hsecond : cs[i + 1]? = rest.head? := by
    rw [← List.head?_drop, ← List.drop_drop, hdrop]
    rfl
  simp [hasPair, hfirst, hsecond]

/-- Whether a point is ahead does not depend on how the characters up to the next blank or semicolon
are gone through. -/
lemma any_point_takeWhile (cs : List Char) :
    (cs.takeWhile fun c => !Text.isBlank c && c ≠ ';').any (· = '.') = pointAhead cs := by
  induction cs with
  | nil => rfl
  | cons c cs ih =>
    rw [pointAhead]
    split_ifs with hpoint hstop
    · subst hpoint
      rw [List.takeWhile_cons_of_pos (by decide)]
      rfl
    · rw [List.takeWhile_cons_of_neg (by simpa [imp_iff_not_or] using hstop)]
      rfl
    · rw [List.takeWhile_cons_of_pos (by simpa [imp_iff_not_or] using hstop), List.any_cons, ih,
        decide_eq_false hpoint, Bool.false_or]

lemma pointAhead?_eq (hi : k.index ≤ cs.length) :
    pointAhead? cs k = some (pointAhead (cs.drop k.index)) := by
  have hsum : k.index + (cs.length - k.index) = cs.length := Nat.add_sub_cancel' hi
  have hslice := slice?_eq (Nat.le_of_eq hsum)
  rw [hsum, ← List.length_drop, List.take_length] at hslice
  rw [pointAhead?, hslice, ← any_point_takeWhile]
  rfl

lemma ne_slash_of_class (hp : p '/' = false) (hc : p c = true) : c ≠ '/' := by
  rintro rfl
  exact absurd hc (by simp [hp])

/-- A character at which a token begins for the lexer is one at which a rule applies. -/
lemma Valid.token? {rest : List Char} {kind : TokenKind} (h : Valid cs k)
    (hdrop : cs.drop k.index = c :: rest) (hmunches : Munches c rest kind n) :
    ∃ found, token? cs k c = some found ∧ Reads cs k kind (n + 1) found := by
  -- a run that begins with `c`
  have hrun : ∀ (q : Char → Bool) (kind : List Char → TokenKind), q '\n' = false → q c = true →
      Reads cs k (kind (c :: rest.takeWhile q)) ((rest.takeWhile q).length + 1)
        (Cursor.run? cs k q kind) := fun q kind hfeed hq => by
    have hreads := h.run? hfeed kind
    rwa [hdrop, List.takeWhile_cons_of_pos hq] at hreads
  unfold Cursor.token?
  simp only [hasPair_iff hdrop, pointAhead?_eq h.index_le, hdrop, Option.bind_some]
  cases hmunches with
  | block rest => exact ⟨_, if_pos ⟨rfl, rfl⟩, h.block? hdrop⟩
  | line rest =>
    have hreads := hrun (· ≠ '\n') (fun _ => .comment) (by simp) (by simp)
    rw [List.takeWhile_cons_of_pos (by simp)] at hreads
    exact ⟨_, by simp, hreads⟩
  | word letter =>
    have hslash := ne_slash_of_class (by decide) letter
    exact ⟨_, by simp [hslash, letter], hrun _ word (by decide) letter⟩
  | float first point =>
    have hslash := ne_slash_of_class (by decide) first
    refine ⟨_, ?_, hrun _ (fun _ => .float) (by decide) first⟩
    simp [hslash, isAlphabetic_of_isPointOrDigit first, first, point]
  | integer first point =>
    have hslash := ne_slash_of_class (by decide) first
    have hdigit := isDigit_of_not_pointAhead first point
    refine ⟨_, ?_, hrun _ (fun _ => .integer) (by decide) hdigit⟩
    simp [hslash, isAlphabetic_of_isPointOrDigit first, first, point]
  | symbol symbol slash =>
    obtain ⟨halphabetic, hnumeral⟩ := classes_of_symbol? symbol
    have hstar : ¬ (c = '/' ∧ rest.head? = some '*') := not_and.mpr fun hc => (slash hc).1
    have hline : ¬ (c = '/' ∧ rest.head? = some '/') := not_and.mpr fun hc => (slash hc).2
    have hfeed : c ≠ '\n' := by
      rintro rfl
      exact absurd symbol (by simp [symbol?])
    have hstep := Valid.step (k := k) (i := k.index) h (by rw [← List.head?_drop, hdrop]; rfl)
    rw [if_neg hfeed] at hstep
    refine ⟨_, ?_, k.jump (k.index + 1), rfl, rfl, hstep⟩
    simp [hstar, hline, halphabetic, hnumeral, symbol, h.place, hdrop]

/-- A character at which no token begins for the lexer is one at which no rule applies. -/
lemma token?_of_munch_eq_none {rest : List Char} (hdrop : cs.drop k.index = c :: rest)
    (hmunch : munch c rest = none) : Cursor.token? cs k c = none := by
  obtain ⟨halphabetic, hnumeral, hsymbol⟩ := munch_eq_none_iff.mp hmunch
  have hslash : c ≠ '/' := by
    rintro rfl
    exact absurd hsymbol (by simp [symbol?])
  simp [Cursor.token?, hasPair_iff hdrop, hslash, halphabetic, hnumeral, hsymbol]

/-! ## Asking for a token -/

/-- What the lexer has still to read. -/
def scanner (cs : List Char) (k : Cursor) : Scanner := ⟨cs.drop k.index, .ofOffset cs k.index⟩

/-- From one cursor to another a token is read as the lexer reads it, or the first one is behind the
last token and the other at the end of the text. -/
inductive Moves (cs : List Char) (k k' : Cursor) (t : Token) : Prop
  | token (ne_eof : t.kind ≠ .eof) (lt : k.index < k'.index)
      (same : (k.scanner cs).token? = some (t, k'.scanner cs))
  | finish (eq_endAt : t = .endAt (.ofOffset cs cs.length)) (at_end : k'.index = cs.length)
      (none : (k.scanner cs).token? = none)

lemma ofOffset_add (h : i + n ≤ cs.length) :
    Position.ofOffset cs (i + n) = (Position.ofOffset cs i).advance ((cs.drop i).take n) := by
  rw [Position.ofOffset_eq_advance_take h, Position.ofOffset_eq_advance_take (by omega),
    List.take_add, Position.advance_append]

/-- The lexer takes a token off where the rules say so. -/
lemma token?_scanner {rest : List Char} {kind : TokenKind} {k' : Cursor}
    (hdrop : cs.drop k.index = c :: rest) (hmunch : munch c rest = some (kind, n))
    (hindex : k'.index = k.index + (n + 1)) (hle : k'.index ≤ cs.length) :
    (k.scanner cs).token? = some (⟨kind, String.ofList ((cs.drop k.index).take (n + 1)),
      .ofOffset cs k.index⟩, k'.scanner cs) := by
  have hrest : cs.drop k'.index = rest.drop n := by
    rw [hindex, ← List.drop_drop, hdrop]
    rfl
  have hplace : Position.ofOffset cs k'.index =
      (Position.ofOffset cs k.index).advance (c :: rest.take n) := by
    rw [hindex, ofOffset_add (hindex ▸ hle), hdrop, List.take_succ_cons]
  simp only [scanner, Scanner.token?, hdrop, Scanner.token?.go, hmunch, List.take_succ_cons, hrest,
    hplace]

/-- The lexer skips a character where no token begins. -/
lemma token?_scanner_skip {rest : List Char} {k' : Cursor} (hdrop : cs.drop k.index = c :: rest)
    (hmunch : munch c rest = none) (hindex : k'.index = k.index + 1)
    (hle : k'.index ≤ cs.length) : (k.scanner cs).token? = (k'.scanner cs).token? := by
  have hrest : cs.drop k'.index = rest := by
    rw [hindex, ← List.drop_drop, hdrop]
    rfl
  have hplace : Position.ofOffset cs k'.index = (Position.ofOffset cs k.index).step c := by
    rw [hindex, ofOffset_add (hindex ▸ hle), hdrop]
    rfl
  simp only [scanner, Scanner.token?, hdrop, Scanner.token?.go, hmunch, hrest, hplace]

lemma Moves.of_skip {k' k'' : Cursor} {t : Token} (hlt : k.index < k'.index)
    (hsame : (k.scanner cs).token? = (k'.scanner cs).token?) (h : Moves cs k' k'' t) :
    Moves cs k k'' t := by
  cases h with
  | token ne_eof lt same => exact .token ne_eof (Nat.lt_trans hlt lt) (hsame.trans same)
  | finish eq_endAt at_end none => exact .finish eq_endAt at_end (hsame.trans none)

/-- A valid cursor gives a result, the result of the lexer, and another valid cursor. -/
theorem Valid.next? (h : Valid cs k) :
    ∃ t k', next? cs k = some (t, k') ∧ Valid cs k' ∧ Moves cs k k' t := by
  fun_induction Cursor.next? cs k with
  | case1 k hnone =>
    have hindex : k.index = cs.length :=
      Nat.le_antisymm h.index_le (List.getElem?_eq_none_iff.mp hnone)
    refine ⟨.endAt (.ofOffset cs cs.length), k, ?_, h, .finish rfl hindex ?_⟩
    · rw [← hindex, h.place]
      rfl
    · rw [scanner, hindex, List.drop_length]
      rfl
  | case2 k c hc found hfound =>
    have hdrop := drop_of_getElem? hc
    cases hmunch : munch c (cs.drop (k.index + 1)) with
    | some rule =>
      obtain ⟨kind, n⟩ := rule
      obtain ⟨found', htoken, k', rfl, hindex, hvalid⟩ :=
        h.token? hdrop (munch_eq_some_iff.mp hmunch)
      obtain rfl := Option.some.inj (hfound.symm.trans htoken)
      exact ⟨_, k', rfl, hvalid, .token (munch_kind_ne_eof hmunch) (by omega)
        (token?_scanner hdrop hmunch hindex hvalid.index_le)⟩
    | none => exact absurd (hfound.symm.trans (token?_of_munch_eq_none hdrop hmunch)) (by simp)
  | case3 k c hc hnone ih =>
    have hdrop := drop_of_getElem? hc
    have hstep := Valid.step (k := k) (i := k.index) h hc
    cases hmunch : munch c (cs.drop (k.index + 1)) with
    | some rule =>
      obtain ⟨found, htoken, -⟩ := h.token? hdrop (munch_eq_some_iff.mp hmunch)
      exact absurd (hnone.symm.trans htoken) (by simp)
    | none =>
      obtain ⟨t, k', hnext, hvalid, hmoves⟩ := ih hstep
      exact ⟨t, k', hnext, hvalid, hmoves.of_skip (Nat.lt_succ_self _)
        (token?_scanner_skip hdrop hmunch rfl hstep.index_le)⟩

/-! ## Asking again and again -/

section Moves

variable {k' : Cursor} {t : Token}

lemma finish_scanner (h : k.index ≤ cs.length) :
    (k.scanner cs).finish = .ofOffset cs cs.length := by
  have hsum : k.index + (cs.length - k.index) = cs.length := Nat.add_sub_cancel' h
  have hplace := ofOffset_add (Nat.le_of_eq hsum)
  rw [hsum, ← List.length_drop, List.take_length] at hplace
  exact hplace.symm

lemma Moves.next_scanner (h : Moves cs k k' t) (hk : k.index ≤ cs.length) :
    (k.scanner cs).next = (t, k'.scanner cs) := by
  unfold Scanner.next
  cases h with
  | token _ _ same => rw [same]
  | finish eq_endAt at_end none =>
    rw [none, eq_endAt, finish_scanner hk, scanner, at_end, List.drop_length]

lemma Moves.drain_of_ne_eof (h : Moves cs k k' t) (ht : t.kind ≠ .eof) :
    (k.scanner cs).drain [] = t :: (k'.scanner cs).drain [] := by
  cases h with
  | token _ _ same => rw [Scanner.drain_of_some same, Scanner.drain_eq]; rfl
  | finish eq_endAt _ _ => exact absurd (by rw [eq_endAt]; rfl) ht

lemma Moves.drain_of_eof (h : Moves cs k k' t) (hk : k.index ≤ cs.length) (ht : t.kind = .eof) :
    (k.scanner cs).drain [] = [t] := by
  cases h with
  | token ne_eof _ _ => exact absurd ht ne_eof
  | finish eq_endAt _ none =>
    rw [Scanner.drain_of_none none, finish_scanner hk, eq_endAt]
    rfl

/-- Either the text is at its end or less of it is left. -/
lemma Moves.at_end_or_lt (h : Moves cs k k' t) :
    t.kind = .eof ∧ k'.index = cs.length ∨ t.kind ≠ .eof ∧ k.index < k'.index := by
  cases h with
  | token ne_eof lt _ => exact .inr ⟨ne_eof, lt⟩
  | finish eq_endAt at_end _ => exact .inl ⟨by rw [eq_endAt]; rfl, at_end⟩

end Moves

/-- All tokens are found within as many steps as there are characters left and one more. -/
lemma Valid.collect? (h : Valid cs k) (hn : cs.length - k.index < n) :
    collect? cs n k = some ((k.scanner cs).drain []) := by
  induction n generalizing k with
  | zero => exact absurd hn (Nat.not_lt_zero _)
  | succ n ih =>
    obtain ⟨t, k', hnext, hvalid, hmoves⟩ := h.next?
    rw [Cursor.collect?, hnext]
    rcases hmoves.at_end_or_lt with ⟨ht, -⟩ | ⟨ht, hlt⟩
    · simp [ht, hmoves.drain_of_eof h.index_le ht]
    · have hle := hvalid.index_le
      simp [ht, hmoves.drain_of_ne_eof ht, ih hvalid (by omega)]

lemma drain_scanner_of_end (h : k.index = cs.length) :
    (k.scanner cs).drain [] = [.endAt (.ofOffset cs cs.length)] := by
  rw [scanner, h, List.drop_length, Scanner.drain_nil]

/-- Tokens that are asked for one after the other are those of the lexer, and then end markers. -/
lemma Valid.take? (h : Valid cs k) (n : ℕ) :
    ∃ ts k', take? cs n k = some (ts, k') ∧ Valid cs k' ∧ ts = (k.scanner cs).take n ∧
      ts = ((k.scanner cs).drain []).take n ++
        List.replicate (n - ((k.scanner cs).drain []).length)
          (.endAt (.ofOffset cs cs.length)) := by
  induction n generalizing k with
  | zero => exact ⟨[], k, rfl, h, rfl, by simp⟩
  | succ n ih =>
    obtain ⟨t, k', hnext, hvalid, hmoves⟩ := h.next?
    obtain ⟨ts, k'', htake, hvalid', hsame, hdrain⟩ := ih hvalid
    refine ⟨t :: ts, k'', by rw [Cursor.take?, hnext]; simp [htake], hvalid', ?_, ?_⟩
    · rw [Scanner.take, hmoves.next_scanner h.index_le, hsame]
    · rw [hdrain]
      cases hmoves with
      | token ne_eof lt same =>
        rw [(Moves.token ne_eof lt same).drain_of_ne_eof ne_eof]
        simp
      | finish eq_endAt at_end none =>
        -- the end marker comes again from here on
        rw [(Moves.finish eq_endAt at_end none).drain_of_eof h.index_le (by rw [eq_endAt]; rfl),
          drain_scanner_of_end at_end, eq_endAt]
        cases n with
        | zero => rfl
        | succ n => simp [List.replicate_succ]

/-- The token that marks the end of a source text. -/
def endMarker (source : String) : Token := .endAt (.ofOffset source.toList source.length)

/-- **However often a token is asked for, the cursor stays in the text.**  In every source text and
for every number `n` of times, asking for a token is possible, that is, no character, slice or
column is asked for that does not exist.  Then

* the offset is one of the text or its end, the line counts the line feeds before the offset, and
  the line feed that is remembered is the last of them or, if there are none, missing;
* what has been found are the first `n` tokens of the text, the end marker at their end being
  repeated as often as is needed;
* asking once more, one finds the end marker and is at the end of the text, or finds another token
  and the offset increases.

So all tokens are found when one asks until the end marker comes, and this is so after as many times
as the text has characters and one more, or earlier. -/
theorem valid_of_asking (source : String) (n : ℕ) :
    (∃ ts k, take? source.toList n start = some (ts, k) ∧ Valid source.toList k ∧
      ts = (Scanner.ofString source).take n ∧
      ts = (tokenize source).take n ++
        List.replicate (n - (tokenize source).length) (endMarker source) ∧
      ∃ t k', next? source.toList k = some (t, k') ∧
        (t.kind = .eof ∧ k'.index = source.length ∨ t.kind ≠ .eof ∧ k.index < k'.index)) ∧
      (tokenize source).getLast? = some (endMarker source) ∧
      collect? source.toList (source.length + 1) start = some (tokenize source) ∧
      (tokenize source).length ≤ source.length + 1 := by
  have hvalid := Valid.start source.toList
  refine ⟨?_, ?_, ?_, ?_⟩
  · obtain ⟨ts, k, htake, hvalid', hsame, hdrain⟩ := hvalid.take? n
    obtain ⟨t, k', hnext, -, hmoves⟩ := hvalid'.next?
    exact ⟨ts, k, htake, hvalid', hsame, hdrain, t, k', hnext, hmoves.at_end_or_lt⟩
  · obtain ⟨placed, hplaced, -⟩ := (Cuts.tokenize source).exists_places
      (show Position.start = Position.start.advance [] from rfl)
    rw [hplaced, List.getLast?_concat, Position.advance_start]
    rfl
  · exact hvalid.collect? (Nat.lt_succ_of_le (Nat.sub_le _ _))
  · exact (Cuts.tokenize source).length_le

end Cursor

end Reckon
