/-
# Layout

Layout should have no meaning: more blanks between the tokens of a source text should change neither
the tokens that are no comments nor what becomes of the program.  In this language it has one, since
a numeral looks for its point up to the next blank and not up to its own end.  `tokenize_insertAt`
says exactly where.

Where it has none, the program is the same but for its places, and running it comes to the same end
with the same output.
-/
import Reckon.Proofs.Gate
import Reckon.Proofs.Recutting

namespace Reckon

/-! ## Sources with the same tokens -/

lemma Token.forall₂_alike_symm {ts us : List Token} (h : List.Forall₂ Alike ts us) :
    List.Forall₂ Alike us ts :=
  h.flip.imp fun _ _ halike =>
    ⟨halike.kind.symm, fun hne => (halike.lexeme (halike.kind ▸ hne)).symm⟩

/-- How the run of a source text ends. -/
inductive Ending where
  | executed
  | rejected
  /-- The text is not a program. -/
  | unreadable
  /-- The program stops before its end. -/
  | stopped
deriving DecidableEq, Repr

/-- The ending that a result tells. -/
def Ending.of : Except Failure Outcome → Ending
  | .ok .executed => executed
  | .ok (.rejected _) => rejected
  | .error (.parse _) => unreadable
  | .error (.run _) => stopped

/-- Programs that are the same without their places do the same. -/
lemma Program.ending_of_unplaced_eq {p q : Program} (h : q.unplaced = p.unplaced) (sink : Sink) :
    Ending.of (conclude (q.execute sink)).1 = Ending.of (conclude (p.execute sink)).1 ∧
      (conclude (q.execute sink)).2 = (conclude (p.execute sink)).2 := by
  have hexecute := congrArg (Program.execute · sink) h
  simp only [unplaced, execute_relocate, Prod.mk.injEq] at hexecute
  obtain ⟨hresult, hsink⟩ := hexecute
  generalize p.execute sink = left at *
  generalize q.execute sink = right at *
  obtain ⟨result, written⟩ := left
  obtain ⟨result', written'⟩ := right
  obtain rfl : written' = written := hsink
  cases result with
  | ok u =>
    cases result' with
    | ok u' => exact ⟨rfl, rfl⟩
    | error err => exact absurd hresult (by simp [Except.mapError])
  | error err =>
    cases result' with
    | ok u' => exact absurd hresult (by simp [Except.mapError])
    | error err' => exact ⟨rfl, rfl⟩

lemma Program.kindErrors_eq_nil_of_unplaced_eq {p q : Program} (h : q.unplaced = p.unplaced) :
    q.kindErrors = [] ↔ p.kindErrors = [] := by
  have herrors := congrArg Program.kindErrors h
  simp only [unplaced, kindErrors_relocate] at herrors
  rw [← List.map_eq_nil_iff, herrors, List.map_eq_nil_iff]

/-- Source texts whose tokens are alike come to the same end with the same output. -/
theorem run_of_alike {source source' : String}
    (h : List.Forall₂ Token.Alike (tokenize source) (tokenize source')) (file : String)
    (sink : Sink) :
    Ending.of (run file source' sink).1 = Ending.of (run file source sink).1 ∧
      (run file source' sink).2 = (run file source sink).2 := by
  cases hp : Program.ofSource source with
  | ok p =>
    obtain ⟨q, hq, hunplaced⟩ := Program.exists_ofTokens_of_alike h hp
    have herrors := Program.kindErrors_eq_nil_of_unplaced_eq hunplaced
    by_cases hnil : p.kindErrors = []
    · rw [run_eq_conclude hp hnil, run_eq_conclude hq (herrors.mpr hnil)]
      exact Program.ending_of_unplaced_eq hunplaced sink
    · obtain ⟨ds, hrun⟩ := exists_run_eq_rejected hp hnil file sink
      obtain ⟨ds', hrun'⟩ := exists_run_eq_rejected hq (mt herrors.mp hnil) file sink
      rw [hrun, hrun']
      exact ⟨rfl, rfl⟩
  | error err =>
    -- likeness of tokens is symmetric, so neither text is a program
    cases hq : Program.ofSource source' with
    | ok q =>
      obtain ⟨p, hp', -⟩ := Program.exists_ofTokens_of_alike (Token.forall₂_alike_symm h) hq
      exact absurd (hp.symm.trans hp') (by simp)
    | error err' =>
      have hrun : run file source sink = (.error (.parse err), sink) := by simp [run, hp]
      have hrun' : run file source' sink = (.error (.parse err'), sink) := by simp [run, hq]
      rw [hrun, hrun']
      exact ⟨rfl, rfl⟩

/-! ## A blank in a source text -/

/-- The kinds and the lexemes of all tokens that are no comments. -/
def significant (ts : List Token) : List (TokenKind × String) :=
  (ts.filter (·.kind ≠ .comment)).map fun t => (t.kind, t.lexeme)

/-- A source text with one more character. -/
def insertAt (source : String) (b : ℕ) (w : Char) : String :=
  String.ofList (source.toList.take b ++ w :: source.toList.drop b)

/-- A token of a source text ends directly before the character number `b`. -/
def EndsToken (source : String) (b : ℕ) : Prop :=
  ∃ t ∈ tokenize source, t.kind ≠ .eof ∧ ∃ o, t.StandsAt source.toList o ∧ b = o + t.lexeme.length

/-- The lexer stops where a token ends. -/
lemma EndsToken.stops {source : String} {b : ℕ} (h : EndsToken source b) :
    Stops (source.toList.take b) (source.toList.drop b) ∧ b ≤ source.toList.length := by
  obtain ⟨t, ht, hkind, o, hstands, rfl⟩ := h
  obtain ⟨gap, ys, hsource, hposition, hstops⟩ := (Cuts.tokenize source).exists_stops ht hkind
  have hle : o ≤ source.toList.length := by
    by_contra hgt
    have hlexeme := hstands.lexeme
    rw [List.drop_eq_nil_of_le (by omega), List.take_nil] at hlexeme
    exact hstands.lexeme_ne (String.toList_eq_nil_iff.mp hlexeme.symm)
  have hgap : t.position = .ofOffset source.toList gap.length := by
    rw [hposition, hsource, Position.ofOffset_append]
  obtain rfl : o = gap.length :=
    Position.ofOffset_inj hle (by simp [hsource]) (hstands.position.symm.trans hgap)
  have hlength : gap.length + t.lexeme.length = (gap ++ t.lexeme.toList).length := by
    rw [List.length_append, String.length_toList]
  rw [hsource, ← List.append_assoc, hlength, List.take_left, List.drop_left]
  exact ⟨hstops, by simp⟩

/-- What becomes of the tokens of a source text when a blank is put behind one of them. -/
lemma EndsToken.forall₂_becomes {source : String} {b : ℕ} {w : Char} (h : EndsToken source b)
    (hw : Text.isBlank w = true) :
    List.Forall₂ (Token.Becomes source.toList b) (tokenize source)
      (tokenize (insertAt source b w)) := by
  obtain ⟨hstops, hle⟩ := h.stops
  have hold := Cuts.tokenize source
  have hnew := Cuts.tokenize (insertAt source b w)
  rw [← List.take_append_drop b source.toList] at hold
  rw [insertAt, String.toList_ofList] at hnew
  have hsource : source.toList = [] ++ (source.toList.take b ++ source.toList.drop b) := by
    rw [List.nil_append, List.take_append_drop]
  refine Cuts.insert_blank hw hstops hsource ?_ hold hnew
  rw [List.length_nil, Nat.zero_add, List.length_take, Nat.min_eq_left hle]

/-- The tokens stay the same for a program just if all of them are pointed. -/
lemma significant_eq_iff {cs : List Char} {b : ℕ} {ts us : List Token}
    (h : List.Forall₂ (Token.Becomes cs b) ts us) :
    significant us = significant ts ↔ ∀ t ∈ ts, t.Pointed cs b := by
  induction h with
  | nil => exact iff_of_true rfl (List.forall_mem_nil _)
  | @cons t u ts us hbecomes _ ih =>
    rw [List.forall_mem_cons, ← ih]
    by_cases hpointed : t.Pointed cs b
    · obtain ⟨hkind, hlexeme⟩ := hbecomes.alike hpointed
      by_cases hcomment : t.kind = .comment
      · simp [significant, hcomment, ← hkind, hpointed]
      · simp [significant, hcomment, ← hkind, hpointed, hlexeme hcomment]
    · obtain ⟨hinteger, -⟩ := hbecomes.integer hpointed
      have hfloat : t.kind = .float := by
        by_contra hne
        exact hpointed fun hkind => absurd hkind hne
      simp [significant, hinteger, hfloat, hpointed]

/-- **Layout has a meaning only for numerals that look for their point across it.**  If a blank is
put into a source text behind one of its tokens, then

* every token stays what it is, but that a comment may take the blank in, unless it is a numeral
  with a point that begins before the blank while the text has no point between its beginning and
  the blank; such a numeral becomes one without a point, of the same text;
* so the kinds and the lexemes of the tokens that are no comments stay the same just if there is no
  such numeral;
* and if they do, the run comes to the same end, and its output is the same. -/
theorem tokenize_insertAt {source : String} {b : ℕ} {w : Char} (hb : EndsToken source b)
    (hw : Text.isBlank w = true) :
    List.Forall₂ (Token.Becomes source.toList b) (tokenize source)
      (tokenize (insertAt source b w)) ∧
    (significant (tokenize (insertAt source b w)) = significant (tokenize source) ↔
      ∀ t ∈ tokenize source, t.Pointed source.toList b) ∧
    (significant (tokenize (insertAt source b w)) = significant (tokenize source) →
      ∀ (file : String) (sink : Sink),
        Ending.of (run file (insertAt source b w) sink).1 =
          Ending.of (run file source sink).1 ∧
        (run file (insertAt source b w) sink).2 = (run file source sink).2) := by
  have hbecomes := hb.forall₂_becomes hw
  have hiff := significant_eq_iff hbecomes
  refine ⟨hbecomes, hiff, fun hsame file sink => ?_⟩
  have halike : List.Forall₂ Token.Alike (tokenize source) (tokenize (insertAt source b w)) := by
    have hpointed := (List.forall₂_and_left _ _).mpr ⟨hiff.mp hsame, hbecomes⟩
    exact hpointed.imp fun _ _ ⟨hpointed, hbecomes⟩ => hbecomes.alike hpointed
  exact run_of_alike halike file sink

/-- A blank behind the operator of `print 1.5+2.5;` changes nothing: the left numeral has its point
before it, and the right one begins after it. -/
theorem tokenize_insertAt_decimal :
    EndsToken "print 1.5+2.5;" 10 ∧ Text.isBlank ' ' = true ∧
      significant (tokenize (insertAt "print 1.5+2.5;" 10 ' ')) =
        significant (tokenize "print 1.5+2.5;") ∧
      Ending.of (run "decimal.wb" (insertAt "print 1.5+2.5;" 10 ' ') .unlimited).1 =
        Ending.of (run "decimal.wb" "print 1.5+2.5;" .unlimited).1 ∧
      (run "decimal.wb" (insertAt "print 1.5+2.5;" 10 ' ') .unlimited).2 =
        (run "decimal.wb" "print 1.5+2.5;" .unlimited).2 := by
  have htokens : tokenize "print 1.5+2.5;" = [⟨.print, "print", ⟨1, 1⟩⟩,
      ⟨.float, "1.5", ⟨1, 7⟩⟩, ⟨.plus, "+", ⟨1, 10⟩⟩, ⟨.float, "2.5", ⟨1, 11⟩⟩,
      ⟨.semi, ";", ⟨1, 14⟩⟩, ⟨.eof, "EOF", ⟨1, 15⟩⟩] := by
    decide +kernel
  have hends : EndsToken "print 1.5+2.5;" 10 := by
    refine ⟨⟨.plus, "+", ⟨1, 10⟩⟩, by simp [htokens], by decide, 9, ⟨?_, ?_, ?_⟩, by decide⟩
    all_goals decide
  have hblank : Text.isBlank ' ' = true := by decide
  have hpointed : ∀ t ∈ tokenize "print 1.5+2.5;", t.Pointed "print 1.5+2.5;".toList 10 := by
    rw [htokens]
    decide
  have hsame := (tokenize_insertAt hends hblank).2.1.mpr hpointed
  exact ⟨hends, hblank, hsame, (tokenize_insertAt hends hblank).2.2 hsame _ _⟩

/-- A blank before the operator of `print 1+2.5;` makes `1` a numeral without a point, and what
has been a program becomes one with an error. -/
theorem tokenize_insertAt_sum :
    EndsToken "print 1+2.5;" 7 ∧ Text.isBlank ' ' = true ∧
      significant (tokenize (insertAt "print 1+2.5;" 7 ' ')) ≠
        significant (tokenize "print 1+2.5;") ∧
      Ending.of (run "sum.wb" "print 1+2.5;" .unlimited).1 = .executed ∧
      Ending.of (run "sum.wb" (insertAt "print 1+2.5;" 7 ' ') .unlimited).1 = .rejected := by
  have htokens : tokenize "print 1+2.5;" = [⟨.print, "print", ⟨1, 1⟩⟩, ⟨.float, "1", ⟨1, 7⟩⟩,
      ⟨.plus, "+", ⟨1, 8⟩⟩, ⟨.float, "2.5", ⟨1, 9⟩⟩, ⟨.semi, ";", ⟨1, 12⟩⟩,
      ⟨.eof, "EOF", ⟨1, 13⟩⟩] := by
    decide +kernel
  have hinsert : insertAt "print 1+2.5;" 7 ' ' = "print 1 +2.5;" := by decide
  have htokens' : tokenize "print 1 +2.5;" = [⟨.print, "print", ⟨1, 1⟩⟩,
      ⟨.integer, "1", ⟨1, 7⟩⟩, ⟨.plus, "+", ⟨1, 9⟩⟩, ⟨.float, "2.5", ⟨1, 10⟩⟩,
      ⟨.semi, ";", ⟨1, 13⟩⟩, ⟨.eof, "EOF", ⟨1, 14⟩⟩] := by
    decide +kernel
  have hends : EndsToken "print 1+2.5;" 7 := by
    refine ⟨⟨.float, "1", ⟨1, 7⟩⟩, by simp [htokens], by decide, 6, ⟨?_, ?_, ?_⟩, by decide⟩
    all_goals decide
  obtain ⟨x, hx⟩ := Option.isSome_iff_exists.mp
    (show (Numeral.float32? "1".toList).isSome = true by decide)
  obtain ⟨y, hy⟩ := Option.isSome_iff_exists.mp
    (show (Numeral.float32? "2.5".toList).isSome = true by decide)
  have hright (p : Position) : (Expr.float y p).Yields [⟨.float, "2.5", p⟩] :=
    .float (t := ⟨.float, "2.5", p⟩) rfl hy
  rw [hinsert, htokens, htokens']
  refine ⟨hends, by decide, by decide, ?_, ?_⟩
  · let sum : Expr := .binary .plus (.float x ⟨1, 7⟩) (.float y ⟨1, 9⟩) ⟨1, 8⟩
    have hleft : (Expr.float x ⟨1, 7⟩).Yields [⟨.float, "1", ⟨1, 7⟩⟩] :=
      .float (t := ⟨.float, "1", ⟨1, 7⟩⟩) rfl hx
    have hyields : sum.Yields [⟨.float, "1", ⟨1, 7⟩⟩, ⟨.plus, "+", ⟨1, 8⟩⟩,
        ⟨.float, "2.5", ⟨1, 9⟩⟩] :=
      hleft.binary (t := ⟨.plus, "+", ⟨1, 8⟩⟩) rfl (hright ⟨1, 9⟩)
    have hcanonical : sum.Canonical :=
      .binary (.float x _) (.float y _) (Nat.zero_le _) (Nat.zero_le _) id
    have hread := Program.ofSource_of_yields htokens rfl rfl hyields hcanonical (by simp)
    have hclean : Program.kindErrors ⟨[.print sum]⟩ = [] := by
      rw [Program.kindErrors_eq]
      rfl
    have hvalue : sum.eval = .ok (.computed (.float (x + y))) := rfl
    rw [run_eq_conclude hread hclean]
    simp [Program.execute, executeAll, Stmt.execute, Expr.evaluate_eq_eval, hvalue,
      Sink.printLine, Sink.unlimited, conclude, Ending.of]
  · let sum : Expr := .binary .plus (.int 1 ⟨1, 7⟩) (.float y ⟨1, 10⟩) ⟨1, 9⟩
    have hleft : (Expr.int 1 ⟨1, 7⟩).Yields [⟨.integer, "1", ⟨1, 7⟩⟩] :=
      .int (t := ⟨.integer, "1", ⟨1, 7⟩⟩) rfl (by decide)
    have hyields : sum.Yields [⟨.integer, "1", ⟨1, 7⟩⟩, ⟨.plus, "+", ⟨1, 9⟩⟩,
        ⟨.float, "2.5", ⟨1, 10⟩⟩] :=
      hleft.binary (t := ⟨.plus, "+", ⟨1, 9⟩⟩) rfl (hright ⟨1, 10⟩)
    have hcanonical : sum.Canonical :=
      .binary (.int 1 _) (.float y _) (Nat.zero_le _) (Nat.zero_le _) id
    have hread := Program.ofSource_of_yields htokens' rfl rfl hyields hcanonical (by simp)
    have herror : Program.kindErrors ⟨[.print sum]⟩ ≠ [] := by
      rw [Program.kindErrors_eq]
      exact List.cons_ne_nil _ _
    obtain ⟨ds, hrun⟩ := exists_run_eq_rejected hread herror "sum.wb" .unlimited
    rw [hrun]
    rfl

end Reckon
