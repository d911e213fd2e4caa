/-
# Where the tokens of a text stand

The lexer moves a place along with the text.  Here places are told by offsets instead: the character
number `n` of a text stands in the line after as many line feeds as there are before it, and its
column counts the characters since the last of them.  `Position.ofOffset` says this without a walk,
and a place is the one after a text of this length (`Position.advance_start`).

A text is cut into tokens without loss.  The lexemes stand in the text at offsets that leave room
for each of them, and whatever stands between them is a character that begins no token.  Since the
places of a text increase with the offsets, those of its tokens do.
-/
import Mathlib.Data.List.Induction
import Reckon.Proofs.Cutting

namespace Reckon

namespace Position

/-! ## The order of places -/

/-- A place comes before another one in reading order. -/
def Before (p q : Position) : Prop := p.line < q.line ∨ p.line = q.line ∧ p.column < q.column

lemma Before.trans {p q r : Position} (hpq : p.Before q) (hqr : q.Before r) : p.Before r := by
  unfold Before at *
  omega

lemma Before.irrefl (p : Position) : ¬ p.Before p := by
  unfold Before
  omega

lemma before_step (p : Position) (c : Char) : p.Before (p.step c) := by
  by_cases h : c = '\n'
  · subst h
    exact .inl (Nat.lt_succ_self _)
  · rw [step_of_ne h]
    exact .inr ⟨rfl, Nat.lt_succ_self _⟩

/-- The place after a text is that of its beginning or a later one. -/
lemma eq_or_before_advance (p : Position) (cs : List Char) :
    p = p.advance cs ∨ p.Before (p.advance cs) := by
  induction cs generalizing p with
  | nil => exact .inl rfl
  | cons c cs ih =>
    rw [advance_cons]
    right
    rcases ih (p.step c) with heq | hbefore
    · rw [← heq]
      exact before_step p c
    · exact (before_step p c).trans hbefore

lemma before_advance_cons (p : Position) (c : Char) (cs : List Char) :
    p.Before (p.advance (c :: cs)) := by
  rw [advance_cons]
  rcases eq_or_before_advance (p.step c) cs with heq | hbefore
  · rw [← heq]
    exact before_step p c
  · exact (before_step p c).trans hbefore

/-! ## Places by offsets -/

/-- The place of the character number `n` of a text, or the place of its end if there are `n`
characters: one line more than there are line feeds before it, and one column more than there are
characters between the last line feed, or the beginning of the text, and it. -/
def ofOffset (cs : List Char) (n : ℕ) : Position where
  line := 1 + (cs.take n).count '\n'
  column := ((cs.take n).reverse.takeWhile (· ≠ '\n')).length + 1

/-- The place after a text is counted out. -/
lemma advance_start (cs : List Char) : start.advance cs = ofOffset cs cs.length := by
  induction cs using List.reverseRecOn with
  | nil => rfl
  | append_singleton cs c ih =>
    rw [advance_append, ih]
    simp only [ofOffset, List.take_length, advance_cons, advance_nil, List.count_append,
      List.reverse_append, List.reverse_singleton, List.singleton_append]
    by_cases h : c = '\n'
    · -- columns are counted anew
      subst h
      simp [Nat.add_assoc]
    · simp [step_of_ne h, h]

lemma ofOffset_append (cs ds : List Char) : ofOffset (cs ++ ds) cs.length = start.advance cs := by
  simp [advance_start, ofOffset]

/-- The place moves on with the offset. -/
lemma advance_ofOffset {cs before text rest : List Char}
    (h : cs = before ++ (text ++ rest)) :
    (ofOffset cs before.length).advance text = ofOffset cs (before ++ text).length := by
  rw [h, ofOffset_append, ← advance_append, ← List.append_assoc, ofOffset_append]

lemma ofOffset_eq_advance_take {cs : List Char} {n : ℕ} (h : n ≤ cs.length) :
    ofOffset cs n = start.advance (cs.take n) := by
  conv_lhs => rw [← List.take_append_drop n cs]
  rw [← ofOffset_append (cs.take n) (cs.drop n), List.length_take, Nat.min_eq_left h]

/-- The places of a text come in the order of the offsets. -/
lemma ofOffset_before {cs : List Char} {m n : ℕ} (hmn : m < n) (hn : n ≤ cs.length) :
    (ofOffset cs m).Before (ofOffset cs n) := by
  rw [ofOffset_eq_advance_take (Nat.le_trans (Nat.le_of_lt hmn) hn), ofOffset_eq_advance_take hn]
  obtain ⟨k, rfl⟩ := Nat.exists_eq_add_of_lt hmn
  have hlt : m < cs.length := by omega
  rw [Nat.add_assoc, List.take_add, List.drop_eq_getElem_cons hlt, List.take_succ_cons,
    advance_append]
  exact before_advance_cons _ _ _

/-- A place belongs to one offset only. -/
lemma ofOffset_inj {cs : List Char} {m n : ℕ} (hm : m ≤ cs.length) (hn : n ≤ cs.length)
    (h : ofOffset cs m = ofOffset cs n) : m = n := by
  rcases Nat.lt_trichotomy m n with hlt | heq | hgt
  · exact absurd (h ▸ ofOffset_before hlt hn) (Before.irrefl _)
  · exact heq
  · exact absurd (h ▸ ofOffset_before hgt hm) (Before.irrefl _)

end Position

/-! ## The order of tokens -/

namespace Cuts

/-- No token stands before the beginning of the text. -/
lemma eq_or_before {p : Position} {cs : List Char} {ts : List Token} (h : Cuts p cs ts) :
    ∀ t ∈ ts, p = t.position ∨ p.Before t.position := by
  induction h with
  | done p => exact List.forall_mem_singleton.mpr (.inl rfl)
  | @skip p c _ _ _ _ ih =>
    intro t ht
    right
    rcases ih t ht with heq | hbefore
    · rw [← heq]
      exact p.before_step c
    · exact (p.before_step c).trans hbefore
  | @token p c cs _ n _ _ _ ih =>
    refine List.forall_mem_cons.mpr ⟨.inl rfl, fun t ht => .inr ?_⟩
    rcases ih t ht with heq | hbefore
    · rw [← heq]
      exact p.before_advance_cons c _
    · exact (p.before_advance_cons c _).trans hbefore

/-- The tokens come in the order of their places. -/
lemma pairwise_before {p : Position} {cs : List Char} {ts : List Token} (h : Cuts p cs ts) :
    ts.Pairwise fun t u => t.position.Before u.position := by
  induction h with
  | done p => exact List.pairwise_singleton _ _
  | skip _ _ ih => exact ih
  | @token p c cs _ n _ _ hrest ih =>
    refine List.pairwise_cons.mpr ⟨fun u hu => ?_, ih⟩
    rcases hrest.eq_or_before u hu with heq | hbefore
    · rw [← heq]
      exact p.before_advance_cons c _
    · exact (p.before_advance_cons c _).trans hbefore

end Cuts

/-! ## Tokens in their text -/

/-- A token stands in a text at an offset. -/
structure Token.StandsAt (t : Token) (cs : List Char) (o : ℕ) : Prop where
  /-- Its lexeme is not empty, -/
  lexeme_ne : t.lexeme ≠ ""
  /-- it is what the text has at the offset, -/
  lexeme : (cs.drop o).take t.lexeme.length = t.lexeme.toList
  /-- and the token has the place of the offset. -/
  position : t.position = .ofOffset cs o

/-- A character with which no token begins. -/
def IsSkipped (c : Char) : Prop :=
  Text.isAlphabetic c = false ∧ c.isDigit = false ∧
    c ∉ ['.', '+', '-', '*', '/', '(', ')', ';']

lemma isSkipped_of_munch {c : Char} {cs : List Char} (h : munch c cs = none) : IsSkipped c := by
  obtain ⟨halphabetic, hnumeral, hsymbol⟩ := munch_eq_none_iff.mp h
  simp only [isPointOrDigit, Bool.or_eq_false_iff, decide_eq_false_iff_not] at hnumeral
  refine ⟨halphabetic, hnumeral.1, fun hmem => ?_⟩
  simp only [List.mem_cons, List.not_mem_nil, or_false] at hmem
  rcases hmem with rfl | rfl | rfl | rfl | rfl | rfl | rfl | rfl
  · exact hnumeral.2 rfl
  all_goals exact absurd hsymbol (by simp [symbol?])

/-- Tokens with their offsets are all those of the text from a certain number of characters on:
they stand there, each begins where the one before it has ended or later, and the characters that
none of them covers are skipped. -/
structure Places (cs : List Char) (begin : ℕ) (placed : List (ℕ × Token)) : Prop where
  begin_le : ∀ x ∈ placed, begin ≤ x.1
  stands : ∀ x ∈ placed, x.2.StandsAt cs x.1
  apart : placed.Pairwise fun x y => x.1 + x.2.lexeme.length ≤ y.1
  skipped : ∀ k c, begin ≤ k → cs[k]? = some c →
    (∀ x ∈ placed, ¬ (x.1 ≤ k ∧ k < x.1 + x.2.lexeme.length)) → IsSkipped c

namespace Places

variable {before cs : List Char} {c : Char} {placed : List (ℕ × Token)}

lemma nil (cs : List Char) : Places cs cs.length [] where
  begin_le := List.forall_mem_nil _
  stands := List.forall_mem_nil _
  apart := .nil
  skipped k c hk hc _ := by simp [List.getElem?_eq_none hk] at hc

/-- A skipped character in front. -/
lemma skip (hc : IsSkipped c)
    (h : Places (before ++ c :: cs) (before.length + 1) placed) :
    Places (before ++ c :: cs) before.length placed where
  begin_le x hx := Nat.le_of_succ_le (h.begin_le x hx)
  stands := h.stands
  apart := h.apart
  skipped k d hk hd hcover := by
    rcases Nat.eq_or_lt_of_le hk with rfl | hlt
    · obtain rfl : c = d := by simpa using hd
      exact hc
    · exact h.skipped k d hlt hd hcover

/-- A token in front. -/
lemma token {text : List Char} {t : Token} (hne : text ≠ [])
    (ht : t.lexeme = String.ofList text) (hposition : t.position = Position.start.advance before)
    (h : Places (before ++ (text ++ cs)) (before.length + text.length) placed) :
    Places (before ++ (text ++ cs)) before.length ((before.length, t) :: placed) := by
  have hlength : t.lexeme.length = text.length := by simp [ht]
  refine ⟨?_, ?_, ?_, ?_⟩
  · refine List.forall_mem_cons.mpr ⟨Nat.le_refl _, fun x hx => ?_⟩
    exact Nat.le_trans (Nat.le_add_right _ _) (h.begin_le x hx)
  · refine List.forall_mem_cons.mpr ⟨⟨?_, ?_, ?_⟩, h.stands⟩
    · intro hempty
      have hzero : text.length = 0 := by rw [← hlength, hempty]; rfl
      exact hne (List.length_eq_zero_iff.mp hzero)
    · simp [ht]
    · rw [Position.ofOffset_append, hposition]
  · refine List.pairwise_cons.mpr ⟨fun x hx => ?_, h.apart⟩
    rw [hlength]
    exact h.begin_le x hx
  · intro k d hk hd hcover
    obtain ⟨hfirst, hothers⟩ := List.forall_mem_cons.mp hcover
    have hle : before.length + text.length ≤ k := by
      rw [hlength] at hfirst
      simp only at hfirst
      omega
    exact h.skipped k d hle hd hothers

end Places

/-- The tokens of the rest of a text but the end marker stand where they have their places, and the
end marker has the place of the end. -/
lemma Cuts.exists_places {p : Position} {cs : List Char} {ts : List Token} (h : Cuts p cs ts)
    {before : List Char} (hp : p = Position.start.advance before) :
    ∃ placed : List (ℕ × Token), ts = placed.map Prod.snd ++ [.endAt (p.advance cs)] ∧
      (∀ x ∈ placed, x.2.kind ≠ .eof) ∧ Places (before ++ cs) before.length placed := by
  induction h generalizing before with
  | done p => exact ⟨[], rfl, List.forall_mem_nil _, by simpa using Places.nil before⟩
  | @skip p c cs ts none _ ih =>
    have hstep : p.step c = Position.start.advance (before ++ [c]) := by simp [hp]
    obtain ⟨placed, hts, hkind, hplaces⟩ := ih hstep
    simp only [List.append_assoc, List.singleton_append, List.length_append,
      List.length_singleton] at hplaces
    exact ⟨placed, hts, hkind, .skip (isSkipped_of_munch none) hplaces⟩
  | @token p c cs kind n ts some _ ih =>
    have hstep : p.advance (c :: cs.take n) =
        Position.start.advance (before ++ c :: cs.take n) := by
      simp [hp]
    obtain ⟨placed, hts, hkind, hplaces⟩ := ih hstep
    have htext : c :: cs = c :: cs.take n ++ cs.drop n := by simp
    rw [List.append_assoc, List.length_append] at hplaces
    rw [htext]
    refine ⟨(before.length, ⟨kind, String.ofList (c :: cs.take n), p⟩) :: placed, ?_, ?_,
      .token (by simp) rfl hp hplaces⟩
    · rw [hts, Position.advance_append]
      rfl
    · exact List.forall_mem_cons.mpr ⟨munch_kind_ne_eof some, hkind⟩

/-- **The lexer loses nothing and invents nothing, and its places are exact.**  The tokens of a text
before its one end marker have offsets that increase, such that

* each stands in the text at its offset: its lexeme is not empty, it is what the text has there, and
  the place of the token is that of the offset;
* no two lexemes overlap;
* a character outside the lexemes is no letter, no digit, no point and no symbol.

The place of the end marker is that of the end of the text.  Lines and columns begin with one, and
the places of the tokens, the end marker included, increase. -/
theorem tokenize_exact (source : String) :
    ∃ placed : List (ℕ × Token),
      tokenize source = placed.map Prod.snd ++
        [⟨.eof, "EOF", .ofOffset source.toList source.toList.length⟩] ∧
      (∀ x ∈ placed, x.2.kind ≠ .eof ∧ x.2.StandsAt source.toList x.1) ∧
      placed.Pairwise (fun x y => x.1 < y.1 ∧ x.1 + x.2.lexeme.length ≤ y.1) ∧
      (∀ k c, source.toList[k]? = some c →
        (∀ x ∈ placed, ¬ (x.1 ≤ k ∧ k < x.1 + x.2.lexeme.length)) → IsSkipped c) ∧
      (∀ t ∈ tokenize source, 1 ≤ t.position.line ∧ 1 ≤ t.position.column) ∧
      (tokenize source).Pairwise fun t u => t.position.Before u.position := by
  have hcuts := Cuts.tokenize source
  have hstart : Position.start = Position.start.advance [] := rfl
  obtain ⟨placed, hts, hkind, hplaces⟩ := hcuts.exists_places hstart
  rw [Position.advance_start] at hts
  rw [List.nil_append, List.length_nil] at hplaces
  refine ⟨placed, hts, fun x hx => ⟨hkind x hx, hplaces.stands x hx⟩, ?_,
    fun k c => hplaces.skipped k c (Nat.zero_le k), ?_, hcuts.pairwise_before⟩
  · refine hplaces.apart.imp_of_mem fun {x y} hx _ hle => ⟨?_, hle⟩
    have hpos : 0 < x.2.lexeme.length := by
      rw [Nat.pos_iff_ne_zero, ne_eq, String.length_eq_zero_iff]
      exact (hplaces.stands x hx).lexeme_ne
    omega
  · intro t ht
    rw [hts, List.mem_append, List.mem_singleton] at ht
    rcases ht with ht | rfl
    · obtain ⟨x, hx, rfl⟩ := List.mem_map.mp ht
      rw [(hplaces.stands x hx).position]
      exact ⟨Nat.le_add_right 1 _, Nat.le_add_left 1 _⟩
    · exact ⟨Nat.le_add_right 1 _, Nat.le_add_left 1 _⟩

end Reckon
