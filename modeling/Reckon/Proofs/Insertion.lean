/-
# A blank between two tokens

A text in which a token ends is compared with the same text and a blank after that token.  Each
token that has been taken off before the blank is taken off again, since the rules look beyond a
token in three ways only.  A run of characters and a comment are cut off where they end, and they
end before the blank or can be prolonged by it; only a comment can be prolonged.  A slash is no
symbol if a slash or a star follows, which a blank is not.  A numeral looks for a point up to the
next blank, and here the new one can make a difference: a numeral whose point stands behind it
becomes one without a point.

`Munches.insert_blank` says this of a token that is taken off before the blank.
-/
import Reckon.Proofs.Cutting
import Reckon.Proofs.Runs

namespace Reckon

/-! ## Blanks begin no token -/

/-- Sets whose intervals do not meet have no character in common. -/
lemma Text.CodePoints.contains_eq_false_of_disjoint {s t : CodePoints}
    (h : ∀ i ∈ s.intervals, ∀ j ∈ t.intervals, i.2 < j.1 ∨ j.2 < i.1) {c : Char}
    (hc : s.contains c = true) : t.contains c = false := by
  obtain ⟨i, hi, hlow, hhigh⟩ := contains_iff.mp hc
  rw [← Bool.not_eq_true, contains_iff]
  rintro ⟨j, hj, hlow', hhigh'⟩
  have hapart := h i hi j hj
  omega

/-- The ASCII blanks come before the digits and the symbols. -/
lemma toNat_of_isBlank {c : Char} (h : Text.isBlank c = true) :
    c.toNat ≤ 0x20 ∨ 0x80 ≤ c.toNat ∧ Text.blankBeyondAscii.contains c = true := by
  unfold Text.isBlank at h
  split at h
  · simp only [Bool.or_eq_true, Bool.and_eq_true, decide_eq_true_eq] at h
    left
    rcases h with rfl | hcontrol
    · decide
    · omega
  · exact .inr ⟨by omega, h⟩

lemma isAlphabetic_of_isBlank {c : Char} (h : Text.isBlank c = true) :
    Text.isAlphabetic c = false := by
  rcases toNat_of_isBlank h with hascii | ⟨hbeyond, hblank⟩
  · rw [Text.isAlphabetic_of_ascii (by omega)]
    exact isAlpha_eq_false (by omega)
  · rw [Text.isAlphabetic, if_neg (by omega)]
    exact Text.CodePoints.contains_eq_false_of_disjoint (by decide +kernel) hblank

lemma isPointOrDigit_of_isBlank {c : Char} (h : Text.isBlank c = true) :
    isPointOrDigit c = false := by
  rw [← Bool.not_eq_true, isPointOrDigit_iff]
  rintro (hdigit | rfl)
  · have hdigits := Char.isDigit_iff_toNat.mp hdigit
    have hzero : '0'.toNat = 0x30 := rfl
    have hnine : '9'.toNat = 0x39 := rfl
    rcases toNat_of_isBlank h with hascii | ⟨hbeyond, -⟩ <;> omega
  · exact absurd h (by decide)

lemma symbol?_of_isBlank {c : Char} (h : Text.isBlank c = true) : symbol? c = none := by
  unfold symbol?
  split
  all_goals first | rfl | exact absurd h (by decide)

/-- No token begins with a blank. -/
lemma munch_of_isBlank {c : Char} (h : Text.isBlank c = true) (cs : List Char) :
    munch c cs = none :=
  munch_eq_none (isAlphabetic_of_isBlank h) (isPointOrDigit_of_isBlank h) (symbol?_of_isBlank h)

/-! ## How far the rules look -/

section look

variable {w : Char} {xs ys : List Char}

/-- A block comment goes on at a character unless it is closed there. -/
lemma blockLength_of_open {c : Char} {cs : List Char} (h : ¬ (c = '*' ∧ cs.head? = some '/'))
    (n : ℕ) : blockLength n (c :: cs) = blockLength (n + 1) cs := by
  rw [blockLength]
  rintro ds rfl rfl
  exact h ⟨rfl, rfl⟩

lemma le_blockLength (n : ℕ) (cs : List Char) : n ≤ blockLength n cs := by
  fun_induction blockLength n cs with
  | case1 n cs => exact Nat.le_add_right n 2
  | case2 n c cs _ ih => exact Nat.le_of_succ_le ih
  | case3 n => exact Nat.le_refl n

lemma lt_blockLength_cons (n : ℕ) (c : Char) (cs : List Char) : n < blockLength n (c :: cs) := by
  by_cases hclose : c = '*' ∧ cs.head? = some '/'
  · obtain ⟨rfl, hhead⟩ := hclose
    obtain ⟨cs, rfl⟩ := List.head?_eq_some_iff.mp hhead
    exact Nat.lt_add_of_pos_right (by decide)
  · rw [blockLength_of_open hclose]
    exact le_blockLength (n + 1) cs

/-- A block comment that ends inside a text does not depend on what follows. -/
lemma blockLength_append_of_lt {n : ℕ} (h : blockLength n (xs ++ ys) < n + xs.length)
    (zs : List Char) : blockLength n (xs ++ zs) = blockLength n (xs ++ ys) := by
  induction xs generalizing n with
  | nil => exact absurd h (Nat.not_lt.mpr (le_blockLength n ys))
  | cons x xs ih =>
    cases xs with
    | nil => exact absurd h (Nat.not_lt.mpr (lt_blockLength_cons n x ys))
    | cons y xs =>
      by_cases hclose : x = '*' ∧ y = '/'
      · obtain ⟨rfl, rfl⟩ := hclose
        rfl
      · have hopen (cs : List Char) :
            blockLength n (x :: y :: xs ++ cs) = blockLength (n + 1) (y :: xs ++ cs) :=
          blockLength_of_open (fun ⟨hx, hy⟩ => hclose ⟨hx, Option.some.inj hy⟩) n
        rw [hopen, List.length_cons] at h
        rw [hopen, hopen]
        exact ih (by omega)

/-- A block comment that ends with a text is prolonged by one character at most. -/
lemma blockLength_insert (hw : w ≠ '/') {n : ℕ} (h : blockLength n (xs ++ ys) = n + xs.length) :
    blockLength n (xs ++ w :: ys) = n + xs.length ∨
      blockLength n (xs ++ w :: ys) = n + xs.length + 1 := by
  induction xs generalizing n with
  | nil =>
    cases ys with
    | nil =>
      right
      simp [blockLength]
    | cons y ys => exact absurd h (Nat.ne_of_gt (lt_blockLength_cons n y ys))
  | cons x xs ih =>
    have hcount : n + (x :: xs).length = n + 1 + xs.length := by
      rw [List.length_cons]
      omega
    by_cases hclose : x = '*' ∧ (xs ++ ys).head? = some '/'
    · obtain ⟨rfl, hhead⟩ := hclose
      obtain ⟨zs, hzs⟩ := List.head?_eq_some_iff.mp hhead
      rw [List.cons_append, hzs, blockLength, hcount] at h
      -- the comment is closed by the last two characters of the text
      obtain ⟨y, rfl⟩ := List.length_eq_one_iff.mp (show xs.length = 1 by omega)
      obtain ⟨rfl, -⟩ := List.cons.inj hzs
      exact .inl rfl
    · have hopen : ¬ (x = '*' ∧ (xs ++ w :: ys).head? = some '/') := by
        rintro ⟨rfl, hhead⟩
        cases xs with
        | nil => exact hw (Option.some.inj hhead)
        | cons y xs => exact hclose ⟨rfl, hhead⟩
      rw [List.cons_append, blockLength_of_open hclose, hcount] at h
      rw [List.cons_append, blockLength_of_open hopen, hcount]
      exact ih h

/-- A point is looked for up to a blank. -/
lemma pointAhead_insert (hw : Text.isBlank w = true) (xs ys : List Char) :
    pointAhead (xs ++ w :: ys) = (pointAhead (xs ++ ys) && xs.contains '.') := by
  induction xs with
  | nil =>
    have hpoint : w ≠ '.' := by
      rintro rfl
      exact absurd hw (by decide)
    simp [pointAhead, hw, hpoint]
  | cons x xs ih =>
    by_cases hpoint : x = '.'
    · simp [pointAhead, hpoint]
    · have hpoint' : '.' ≠ x := Ne.symm hpoint
      by_cases hstop : Text.isBlank x = true ∨ x = ';'
      · simp [pointAhead, hpoint, hstop]
      · simp [pointAhead, hpoint, hstop, ih, hpoint']

/-- Without a point a numeral is a run of digits. -/
lemma takeWhile_isDigit_of_no_point (hw : isPointOrDigit w = false) (h : '.' ∉ xs) :
    (xs ++ w :: ys).takeWhile Char.isDigit = (xs ++ w :: ys).takeWhile isPointOrDigit := by
  induction xs with
  | nil =>
    simp [hw, isDigit_eq_false hw]
  | cons x xs ih =>
    simp only [List.mem_cons, not_or] at h
    obtain ⟨hx, hxs⟩ := h
    have hclass : isPointOrDigit x = x.isDigit := by simp [isPointOrDigit, Ne.symm hx]
    simp only [List.cons_append, List.takeWhile_cons, hclass, ih hxs]

end look

/-! ## One token -/

namespace Munches

variable {c w : Char} {xs ys : List Char} {kind : TokenKind} {n : ℕ}

/-- A token that is taken off before the blank still is, and it is of the same kind unless it is a
numeral that has found its point behind the blank. -/
lemma insert_blank (h : Munches c (xs ++ ys) kind n) (hw : Text.isBlank w = true)
    (hn : n ≤ xs.length) (hcomment : kind = .comment → n < xs.length) :
    Munches c (xs ++ w :: ys) kind n ∧ (kind = .float → '.' ∈ c :: xs) ∨
      kind = .float ∧ '.' ∉ c :: xs ∧ Munches c (xs ++ w :: ys) .integer n := by
  have hnumeral := isPointOrDigit_of_isBlank hw
  generalize hcs : xs ++ ys = cs at h
  cases h with
  | block cs =>
    cases xs with
    | nil => exact absurd (hcomment rfl) (Nat.not_lt_zero _)
    | cons x xs =>
      rw [List.cons_append] at hcs
      obtain ⟨rfl, rfl⟩ := List.cons.inj hcs
      have hlt := hcomment rfl
      rw [List.length_cons, Nat.add_comm] at hlt
      rw [← blockLength_append_of_lt hlt (w :: ys)]
      exact .inl ⟨.block _, nofun⟩
  | line cs =>
    cases xs with
    | nil => exact absurd (hcomment rfl) (Nat.not_lt_zero _)
    | cons x xs =>
      rw [List.cons_append] at hcs
      obtain ⟨rfl, rfl⟩ := List.cons.inj hcs
      rw [← takeWhile_append_of_lt (Nat.lt_of_succ_lt_succ (hcomment rfl)) (w :: ys)]
      exact .inl ⟨.line _, nofun⟩
  | word letter =>
    subst hcs
    rw [← takeWhile_insert (isAlphabetic_of_isBlank hw) hn]
    refine .inl ⟨.word letter, fun hkind => ?_⟩
    rcases wordKind_eq (c :: (xs ++ w :: ys).takeWhile Text.isAlphabetic) with h | h
    all_goals exact absurd (h.symm.trans hkind) (by decide)
  | float first point =>
    subst hcs
    have hrun := takeWhile_insert hnumeral hn
    have hahead := pointAhead_insert hw (c :: xs) ys
    rw [List.cons_append, List.cons_append, point, Bool.true_and] at hahead
    by_cases hpoint : '.' ∈ c :: xs
    · -- the point that was found stands before the blank
      rw [← hrun]
      exact .inl ⟨.float first (by simpa [hahead] using hpoint), fun _ => hpoint⟩
    · -- it stands behind the blank, and the numeral itself has digits only
      have hxs : '.' ∉ xs := fun hmem => hpoint (List.mem_cons_of_mem c hmem)
      rw [← hrun, ← takeWhile_isDigit_of_no_point hnumeral hxs]
      exact .inr ⟨rfl, hpoint, .integer first (by simpa [hahead] using hpoint)⟩
  | integer first point =>
    subst hcs
    have hahead := pointAhead_insert hw (c :: xs) ys
    rw [List.cons_append, List.cons_append, point, Bool.false_and] at hahead
    rw [← takeWhile_insert (isDigit_eq_false hnumeral) hn]
    exact .inl ⟨.integer first hahead, nofun⟩
  | symbol symbol slash =>
    subst hcs
    refine .inl ⟨.symbol symbol fun hslash => ?_, fun hkind => absurd hkind (symbol?_ne symbol).1⟩
    cases xs with
    | nil =>
      -- the blank follows directly, and a slash before it begins no comment
      have hnone := symbol?_of_isBlank hw
      constructor
      all_goals
        intro hhead
        obtain rfl : w = _ := Option.some.inj hhead
        exact absurd hnone (by decide)
    | cons x xs => exact slash hslash

/-- A comment that ends before the blank still does or has it as its last character. -/
lemma insert_blank_of_comment (h : Munches c (xs ++ ys) .comment xs.length)
    (hw : Text.isBlank w = true) : Munches c (xs ++ w :: ys) .comment xs.length ∨
      Munches c (xs ++ w :: ys) .comment (xs.length + 1) := by
  generalize hcs : xs ++ ys = cs at h
  generalize hkind : TokenKind.comment = kind at h
  generalize hn : xs.length = n at h
  cases h with
  | block cs =>
    cases xs with
    | nil => exact absurd hn (Nat.ne_of_lt (le_blockLength 1 cs))
    | cons x xs =>
      rw [List.cons_append] at hcs
      obtain ⟨rfl, rfl⟩ := List.cons.inj hcs
      have hslash : w ≠ '/' := by
        rintro rfl
        exact absurd hw (by decide)
      rw [List.length_cons, Nat.add_comm] at hn
      -- only a comment that is not closed takes the blank in
      rcases blockLength_insert hslash hn.symm with hsame | hmore
      · rw [← hn, ← hsame]
        exact .inl (.block _)
      · rw [← hn, ← hmore]
        exact .inr (.block _)
  | line cs =>
    cases xs with
    | nil => exact absurd hn (Nat.succ_ne_zero _).symm
    | cons x xs =>
      rw [List.cons_append] at hcs
      obtain ⟨rfl, rfl⟩ := List.cons.inj hcs
      have hrun := Nat.succ.inj hn
      rw [← hrun]
      -- a line feed ends the comment as the end of the line did, any other blank belongs to it
      rcases length_takeWhile_insert (w := w) hrun.symm with hsame | hmore
      · rw [← hsame]
        exact .inl (.line _)
      · rw [← hmore]
        exact .inr (.line _)
  | word letter =>
    rcases wordKind_eq (c :: cs.takeWhile Text.isAlphabetic) with h | h
    all_goals exact absurd (hkind.trans h) (by decide)
  | float | integer => exact absurd hkind (by decide)
  | symbol symbol _ => exact absurd hkind.symm (symbol?_ne symbol).2

end Munches

end Reckon
