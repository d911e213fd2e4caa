/-
# Source texts in sequence

A source text that is a program can be put above another one, with a line feed between them, and
nothing in the two has an influence on the other: the tokens are those of both, the parser begins
anew behind each statement, the check looks at one operator at a time, and what is executed of the
second text is executed after the first.  The places in the second text are as many lines further
down as the first text has lines, and nothing else about them changes.

The condition is that the last token of the first text is closed, since a block comment that is not
would go on in the second.  The main result is `ofSource_append_newline`.
-/
import Reckon.Proofs.BigStep
import Reckon.Proofs.Pointing
import Reckon.Proofs.Seam

namespace Reckon

/-! ## Programs -/

/-- A failure with another place. -/
def Failure.relocate (f : Position → Position) : Failure → Failure
  | parse e => parse (e.relocate f)
  | run e => run (e.relocate f)

namespace Program

/-- The statements of one program and then those of another. -/
def append (p q : Program) : Program := ⟨p.statements ++ q.statements⟩

lemma kindErrors_append (p q : Program) :
    (p.append q).kindErrors = p.kindErrors ++ q.kindErrors := by
  rw [kindErrors_eq, kindErrors_eq, kindErrors_eq, append, List.flatMap_append]

end Program

/-- The number of lines of a text: one more than there are line feeds. -/
def Text.height (source : String) : ℕ := 1 + source.toList.count '\n'

/-- The last token of a text is no block comment that is not closed. -/
def Closed (source : String) : Prop :=
  ∀ t ∈ (tokenize source).dropLast.getLast?, ¬ t.Unterminated

section source

variable {s t : String} {p : Program}

/-- What the parser is given of two texts: the tokens of both, and the end of the second. -/
lemma Parser.ofSource_append (hs : Closed s) {xs ys : List Token} {stop stop' : Position}
    (hxs : tokenize s = xs ++ [.endAt stop]) (hxkind : ∀ u ∈ xs, u.kind ≠ .eof)
    (hys : tokenize t = ys ++ [.endAt stop']) (hykind : ∀ u ∈ ys, u.kind ≠ .eof) :
    ofSource (s ++ "\n" ++ t) =
      ⟨xs ++ ys.map (Token.relocate (.lower (Text.height s))), stop'.lower (Text.height s)⟩ := by
  have htokens : tokenize (s ++ "\n" ++ t) =
      xs ++ ys.map (Token.relocate (.lower (Text.height s))) ++
        [.endAt (stop'.lower (Text.height s))] := by
    rw [tokenize_append_newline hs, hxs, hys, List.dropLast_concat, List.map_append,
      List.append_assoc]
    rfl
  have hkinds : ∀ u ∈ xs ++ ys.map (Token.relocate (.lower (Text.height s))), u.kind ≠ .eof :=
    List.forall_mem_append.mpr ⟨hxkind, List.forall_mem_map.mpr hykind⟩
  rw [ofSource, htokens, ofTokens_concat hkinds]

/-- What is read of two texts: an error is that of the second, further down, and the statements are
those of both. -/
lemma Program.ofSource_append (hp : ofSource s = .ok p) (hs : Closed s) :
    ofSource (s ++ "\n" ++ t) =
      ((ofSource t).map fun q => p.append (q.relocate (.lower (Text.height s)))).mapError
        (ParseError.relocate (.lower (Text.height s))) := by
  obtain ⟨xs, hxs, hxkind, -⟩ := exists_tokenize_eq s
  obtain ⟨ys, hys, hykind, -⟩ := exists_tokenize_eq t
  generalize Position.ofOffset t.toList t.toList.length = stop at hys
  obtain ⟨ss, hss, hcanonical, hyields⟩ := Parser.allYield_of_statements hp
  obtain rfl : p.statements = ss := hss
  rw [Parser.ofSource, hxs, Parser.ofTokens_concat hxkind] at hyields
  -- behind the statements of the first text the parser is where it begins with the second
  have hsecond : (Parser.statements (stop.lower (Text.height s)) []
        (ys.map (Token.relocate (.lower (Text.height s))))).1 =
      ((ofSource t).map (Program.relocate (.lower (Text.height s)))).mapError
        (ParseError.relocate (.lower (Text.height s))) := by
    rw [ofSource, Parser.ofSource, hys, Parser.ofTokens_concat hykind]
    exact Parser.statements_relocate [] ys
  calc ofSource (s ++ "\n" ++ t)
      = (Parser.statements (stop.lower (Text.height s)) []
          (xs ++ ys.map (Token.relocate (.lower (Text.height s))))).1 := by
        rw [ofSource, Parser.ofSource_append hs hxs hxkind hys hykind]
        rfl
    _ = (Parser.statements (stop.lower (Text.height s)) p.statements.reverse
          (ys.map (Token.relocate (.lower (Text.height s))))).1 := by
        rw [Parser.statements_append hyields hcanonical, List.append_nil]
    _ = ((ofSource t).map fun q => p.append (q.relocate (.lower (Text.height s)))).mapError
          (ParseError.relocate (.lower (Text.height s))) := by
        rw [Parser.statements_found, hsecond, List.reverse_reverse]
        cases ofSource t <;> rfl

/-! ## Diagnostics -/

/-- The lines of the first text stay where they are. -/
lemma KindError.quoted_append_left (hp : Program.ofSource s = .ok p) {e : KindError}
    (he : e ∈ p.kindErrors) :
    e.quoted (Text.lines (s ++ "\n" ++ t)) = e.quoted (Text.lines s) := by
  have hline := (isQuoted hp he).line
  obtain ⟨hlt, -⟩ := Array.getElem?_eq_some_iff.mp hline
  rw [quoted, quoted, Text.lines_append, Array.getElem?_append_left hlt]

/-- The lines of the second text are further down. -/
lemma KindError.quoted_append_right (hp : Program.ofSource t = .ok p) {e : KindError}
    (he : e ∈ p.kindErrors) :
    (e.relocate (.lower (Text.height s))).quoted (Text.lines (s ++ "\n" ++ t)) =
      e.quoted (Text.lines t) := by
  have hpos := (isQuoted hp he).line_pos
  have hsize : (Text.lines s).size = Text.height s := Text.size_lines s
  have hline : e.position.line + Text.height s - 1 =
      (Text.lines s).size + (e.position.line - 1) := by
    omega
  simp only [quoted, relocate, Position.lower]
  rw [hline, Text.lines_append, Array.getElem?_append_right (Nat.le_add_right _ _),
    Nat.add_sub_cancel_left]

/-- The diagnostics of two texts are those of the first and those of the second, of which only the
lines in their headers have changed. -/
lemma Program.diagnostics_append {q : Program} (hp : ofSource s = .ok p) (hq : ofSource t = .ok q)
    (file : String) :
    (p.append (q.relocate (.lower (Text.height s)))).diagnostics file (s ++ "\n" ++ t) =
      p.diagnostics file s ++ q.kindErrors.map fun e =>
        (e.relocate (.lower (Text.height s))).header file ++ "\n" ++
          e.body (e.quoted (Text.lines t)) := by
  have hfirst : p.kindErrors.map (KindError.diagnostic file (Text.lines (s ++ "\n" ++ t))) =
      p.diagnostics file s := by
    refine List.map_congr_left fun e he => ?_
    rw [KindError.diagnostic_eq, KindError.diagnostic_eq, KindError.quoted_append_left hp he]
  have hsecond (e : KindError) (he : e ∈ q.kindErrors) :
      (e.relocate (.lower (Text.height s))).diagnostic file (Text.lines (s ++ "\n" ++ t)) =
        (e.relocate (.lower (Text.height s))).header file ++ "\n" ++
          e.body (e.quoted (Text.lines t)) := by
    rw [KindError.diagnostic_eq, KindError.quoted_append_right hq he]
    rfl
  rw [diagnostics, kindErrors_append, List.map_append, hfirst, kindErrors_relocate, List.map_map]
  exact congrArg _ (List.map_congr_left hsecond)

/-! ## Runs -/

lemma executeAll_append (xs ys : List Stmt) (sink : Sink) :
    executeAll (xs ++ ys) sink =
      match executeAll xs sink with
      | (.ok (), sink') => executeAll ys sink'
      | (.error err, sink') => (.error err, sink') := by
  induction xs generalizing sink with
  | nil => rfl
  | cons x xs ih =>
    rw [List.cons_append, executeAll, executeAll]
    rcases x.execute sink with ⟨u | err, sink'⟩
    · rfl
    · exact ih sink'

/-- On a sink that takes everything, statements do the same whatever has been written before. -/
lemma executeAll_written (ss : List Stmt) (written : String) (refusal : Refusal) :
    executeAll ss ⟨written, none, refusal⟩ = ((executeAll ss .unlimited).1,
      ⟨written ++ (executeAll ss .unlimited).2.written, none, refusal⟩) := by
  obtain ⟨lines, result, hruns⟩ := Runs.exists_runs ss
  rw [hruns.executeAll_eq, Sink.unlimited, hruns.executeAll_eq, String.empty_append]

lemma runUnchecked_of_ofSource (hp : Program.ofSource s = .ok p) (sink : Sink) :
    runUnchecked s sink = conclude (p.execute sink) := by
  rw [runUnchecked, hp]

/-- What two texts do: what the first one does, and then, unless it fails, what the second does. -/
lemma conclude_append (p q : Program) (f : Position → Position) (written : String)
    (refusal : Refusal) :
    conclude ((p.append (q.relocate f)).execute ⟨written, none, refusal⟩) =
      match conclude (p.execute ⟨written, none, refusal⟩) with
      | (.error failure, sink) => (.error failure, sink)
      | (.ok _, sink) => ((conclude (q.execute .unlimited)).1.mapError (Failure.relocate f),
          ⟨sink.written ++ (conclude (q.execute .unlimited)).2.written, none, refusal⟩) := by
  rw [Program.execute, Program.append, executeAll_append]
  rw [show p.execute = executeAll p.statements from rfl,
    executeAll_written p.statements written refusal]
  rcases hfirst : (executeAll p.statements .unlimited).1 with err | u
  · -- the first program fails, and nothing of the second is executed
    rfl
  · have hsecond := Program.execute_relocate f q
    simp only [Program.execute, Program.relocate] at hsecond ⊢
    simp only [conclude]
    rw [hsecond, executeAll_written q.statements]
    rcases executeAll q.statements .unlimited with ⟨err | u, sink⟩
    · rfl
    · rfl

/-! ## Both texts -/

/-- What two source texts come to, the second below the first, which is the program `p`. -/
structure Stacks (s t : String) (p : Program) : Prop where
  /-- They are no program if the second is none, and the error is the same, further down. -/
  error : ∀ err, Program.ofSource t = .error err →
    Program.ofSource (s ++ "\n" ++ t) = .error (err.relocate (.lower (Text.height s)))
  /-- Otherwise their statements are those of the first, and those of the second further down. -/
  ok : ∀ q, Program.ofSource t = .ok q →
    Program.ofSource (s ++ "\n" ++ t) = .ok (p.append (q.relocate (.lower (Text.height s))))
  /-- The diagnostics are those of the first and those of the second, with other lines in the
  headers of the latter and no other change. -/
  diagnostics : ∀ q, Program.ofSource t = .ok q → ∀ file,
    (q.diagnostics file t = q.kindErrors.map fun e =>
      e.header file ++ "\n" ++ e.body (e.quoted (Text.lines t))) ∧
    (p.append (q.relocate (.lower (Text.height s)))).diagnostics file (s ++ "\n" ++ t) =
      p.diagnostics file s ++ q.kindErrors.map fun e =>
        (e.relocate (.lower (Text.height s))).header file ++ "\n" ++
          e.body (e.quoted (Text.lines t))
  /-- On a sink that takes everything the first is executed, and if it does not fail, the output of
  the second follows, and the result is that of the second, a failure being further down. -/
  run : ∀ q, Program.ofSource t = .ok q → ∀ written refusal,
    runUnchecked (s ++ "\n" ++ t) ⟨written, none, refusal⟩ =
      match runUnchecked s ⟨written, none, refusal⟩ with
      | (.error failure, sink) => (.error failure, sink)
      | (.ok _, sink) =>
        ((runUnchecked t .unlimited).1.mapError (Failure.relocate (.lower (Text.height s))),
          ⟨sink.written ++ (runUnchecked t .unlimited).2.written, none, refusal⟩)

/-- **A source text below a program is read, checked and executed as it is alone.**  Its places are
further down by the number of lines of the program, and what the program does comes first. -/
theorem ofSource_append_newline (hp : Program.ofSource s = .ok p) (hs : Closed s) (t : String) :
    Stacks s t p := by
  have happend : Program.ofSource (s ++ "\n" ++ t) = _ := Program.ofSource_append hp hs
  refine ⟨fun err ht => ?_, fun q hq => ?_, fun q hq file => ⟨?_, ?_⟩,
    fun q hq written refusal => ?_⟩
  · rw [happend, ht]
    rfl
  · rw [happend, hq]
    rfl
  · exact List.map_congr_left fun e _ => KindError.diagnostic_eq file _ e
  · exact Program.diagnostics_append hp hq file
  · have hboth : Program.ofSource (s ++ "\n" ++ t) =
        .ok (p.append (q.relocate (.lower (Text.height s)))) := by
      rw [happend, hq]
      rfl
    rw [runUnchecked_of_ofSource hboth, runUnchecked_of_ofSource hp, runUnchecked_of_ofSource hq]
    exact conclude_append p q _ written refusal

end source

/-- The comment at the end of `print 1; /* a */` is closed. -/
theorem ofSource_append_newline_comment :
    Program.ofSource "print 1; /* a */" = .ok ⟨[.print (.int 1 ⟨1, 7⟩)]⟩ ∧
      Closed "print 1; /* a */" ∧
      Stacks "print 1; /* a */" "print 2 / 0;" ⟨[.print (.int 1 ⟨1, 7⟩)]⟩ := by
  have htokens : tokenize "print 1; /* a */" = [⟨.print, "print", ⟨1, 1⟩⟩,
      ⟨.integer, "1", ⟨1, 7⟩⟩, ⟨.semi, ";", ⟨1, 8⟩⟩, ⟨.comment, "/* a */", ⟨1, 10⟩⟩,
      ⟨.eof, "EOF", ⟨1, 17⟩⟩] := by
    decide +kernel
  have hvalue : (Expr.int 1 ⟨1, 7⟩).Yields [⟨.integer, "1", ⟨1, 7⟩⟩] :=
    .int (t := ⟨.integer, "1", ⟨1, 7⟩⟩) rfl (by decide)
  have hyields : Stmt.AllYield [.print (.int 1 ⟨1, 7⟩)] [⟨.print, "print", ⟨1, 1⟩⟩,
      ⟨.integer, "1", ⟨1, 7⟩⟩, ⟨.semi, ";", ⟨1, 8⟩⟩, ⟨.comment, "/* a */", ⟨1, 10⟩⟩] :=
    .print rfl hvalue rfl (.comment rfl .nil)
  have hp : Program.ofSource "print 1; /* a */" = .ok ⟨[.print (.int 1 ⟨1, 7⟩)]⟩ := by
    rw [Program.ofSource, Parser.ofSource, htokens]
    exact Parser.statements_of_allYield hyields (List.forall_mem_singleton.mpr (.int _ _)) []
  have hs : Closed "print 1; /* a */" := by
    rw [Closed, htokens]
    decide
  exact ⟨hp, hs, ofSource_append_newline hp hs "print 2 / 0;"⟩

end Reckon
