/-
# Diagnostics

A diagnostic is a header and a body.  Only the header tells the line of the error; the body quotes
this line and has a mark below it.  The line exists, since an error in kinds is at an operator and
has its place, and the operator is the character of the line at the column of the error,
`KindError.isQuoted`.

The mark is below the operator, unless that is the first character of its line: this is
`KindError.mark_under_operator`.
-/
import Reckon.Proofs.Kinds
import Reckon.Proofs.Layout
import Reckon.Proofs.Symbols
import Reckon.Typing.Diagnostic

namespace Reckon

/-! ## The operator of an error -/

/-- An error in kinds is at a site. -/
lemma Program.exists_site_of_mem_kindErrors {p : Program} {e : KindError}
    (h : e ∈ p.kindErrors) : ∃ l r b, ⟨.binary e.op l r e.position, b⟩ ∈ p.sites := by
  rw [kindErrors_eq_filterMap] at h
  obtain ⟨s, hs, herror⟩ := List.mem_filterMap.mp h
  obtain ⟨op, l, r, q, a, b, rfl, -, -, -, rfl⟩ := Site.kindError?_eq_some herror
  exact ⟨l, r, true, hs⟩

lemma KindError.hasAt {source : String} {p : Program} (hp : Program.ofSource source = .ok p)
    {e : KindError} (he : e ∈ p.kindErrors) : Text.HasAt source e.position e.op.symbol := by
  obtain ⟨l, r, b, hs⟩ := Program.exists_site_of_mem_kindErrors he
  exact Program.hasAt_of_mem_sites hp hs

/-! ## Headers and bodies -/

namespace KindError

/-- The first line of a diagnostic. -/
def header (file : String) (e : KindError) : String :=
  "File '" ++ file ++ "', line " ++ toString e.position.line ++ ", col "
    ++ toString e.position.column

/-- What stands between the tab and the mark. -/
def margin (e : KindError) : List Char := ' ' :: List.replicate (e.position.column - 2) ' '

/-- The line that is quoted in a diagnostic. -/
def quoted (lines : Array (List Char)) (e : KindError) : List Char :=
  (lines[e.position.line - 1]?).getD []

/-- What follows the first line of a diagnostic: the quoted line, the mark below it and the text of
the error. -/
def body (line : List Char) (e : KindError) : String :=
  String.ofList ('\t' :: line) ++ "\n" ++ String.ofList ('\t' :: (e.margin ++ "^------".toList)) ++
    "\n" ++ e.message ++ "\n"

lemma diagnostic_eq (file : String) (lines : Array (List Char)) (e : KindError) :
    e.diagnostic file lines = e.header file ++ "\n" ++ e.body (e.quoted lines) := by
  have htab : "\n\t".toList = "\n".toList ++ ['\t'] := rfl
  have hblank : "\n\t ".toList = "\n".toList ++ ['\t', ' '] := rfl
  have hmark : "^------\n".toList = "^------".toList ++ "\n".toList := rfl
  unfold diagnostic
  apply String.toList_inj.mp
  simp only [header, body, quoted, margin, String.toList_append, String.toList_ofList, htab, hblank,
    hmark, List.append_assoc, List.cons_append, List.nil_append]

/-- The line that is quoted in a diagnostic exists, and it has the operator at the column of the
error. -/
structure IsQuoted (source : String) (e : KindError) : Prop where
  line_pos : 1 ≤ e.position.line
  line : (Text.lines source)[e.position.line - 1]? = some (e.quoted (Text.lines source))
  column_pos : 1 ≤ e.position.column
  operator : (e.quoted (Text.lines source))[e.position.column - 1]? = some e.op.symbol

lemma isQuoted {source : String} {p : Program} (hp : Program.ofSource source = .ok p)
    {e : KindError} (he : e ∈ p.kindErrors) : e.IsQuoted source := by
  obtain ⟨hline, hcolumn, hchar⟩ := hasAt hp he
  obtain ⟨line, hfound, hoperator⟩ := Option.bind_eq_some_iff.mp hchar
  have hquoted : e.quoted (Text.lines source) = line := by rw [quoted, hfound, Option.getD_some]
  exact ⟨hline, by rw [hquoted, hfound], hcolumn, by rw [hquoted, hoperator]⟩

end KindError

/-! ## The mark under the operator -/

namespace KindError

lemma newline_not_mem_message (e : KindError) : '\n' ∉ e.message.toList := by
  have hop : '\n' ∉ e.op.label.toList := by cases e.op <;> decide
  have hkind (k : Kind) : '\n' ∉ k.label.toList := by cases k <;> decide
  have htexts : '\n' ∉ "Type Error: unsupported operand type(s) for ".toList ∧
      '\n' ∉ ": '".toList ∧ '\n' ∉ "' and '".toList ∧ '\n' ∉ "'".toList := by decide
  unfold message
  simp only [String.toList_append, List.mem_append, hop, hkind, htexts, or_self, not_false_eq_true]

lemma lines_body {line : List Char} (h : '\n' ∉ line) (e : KindError) :
    Text.lines (e.body line) =
      #['\t' :: line, '\t' :: (e.margin ++ "^------".toList), e.message.toList, []] := by
  have hlines {cs : List Char} (hcs : '\n' ∉ cs) : Text.lines (String.ofList cs) = #[cs] := by
    rw [Text.lines_eq_singleton (by simpa using hcs), String.toList_ofList]
  have hmargin : '\n' ∉ e.margin := by simp [margin]
  have hempty : Text.lines "" = #[[]] := Text.lines_eq_singleton (by simp)
  have hend (s : String) : s ++ "\n" = s ++ "\n" ++ "" := String.append_empty.symm
  rw [body, hend, Text.lines_append, Text.lines_append, Text.lines_append, hlines (by simp [h]),
    hlines (by simp [hmargin]), Text.lines_eq_singleton e.newline_not_mem_message, hempty]
  simp only [List.append_toArray, List.cons_append, List.nil_append]

/-- The lines of a diagnostic. -/
lemma lines_diagnostic (file : String) {source : String} {e : KindError}
    (h : e.IsQuoted source) :
    Text.lines (e.diagnostic file (Text.lines source)) = Text.lines (e.header file) ++
      #['\t' :: e.quoted (Text.lines source), '\t' :: (e.margin ++ "^------".toList),
        e.message.toList, []] := by
  have hquoted : '\n' ∉ e.quoted (Text.lines source) := by
    have hline := h.line
    rw [Text.lines_eq, List.getElem?_toArray] at hline
    rw [Text.lines_eq]
    exact Text.newline_not_mem_splitOn _ _ (List.mem_of_getElem? hline)
  rw [diagnostic_eq, Text.lines_append, lines_body hquoted]

/-- **The mark of a diagnostic is under the operator, unless that is the first character of its
line.**  The quoted line and the line of the mark follow a tab each.  Before the mark there are only
spaces, as many as there are characters before the operator; but there is one if there are none, so
that then, and only then, the mark is one place too far to the right. -/
theorem mark_under_operator {source : String} {p : Program} (hp : Program.ofSource source = .ok p)
    {e : KindError} (he : e ∈ p.kindErrors) (file : String) :
    ∃ before after : List Char,
      Text.lines (e.diagnostic file (Text.lines source)) = Text.lines (e.header file) ++
        #['\t' :: (before ++ e.op.symbol :: after), '\t' :: (e.margin ++ "^------".toList),
          e.message.toList, []] ∧
      before.length + 1 = e.position.column ∧
      (∀ c ∈ e.margin, c = ' ') ∧ e.margin.length = max 1 before.length ∧
      (e.margin.length = before.length ↔ e.position.column ≠ 1) := by
  have hquoted := isQuoted hp he
  have hdiagnostic := lines_diagnostic file hquoted
  obtain ⟨hlt, hoperator⟩ := List.getElem?_eq_some_iff.mp hquoted.operator
  have hcolumn := hquoted.column_pos
  -- the subtraction stops at zero, so that an operator in column 1 has the margin of column 2
  have hmargin : e.margin.length = e.position.column - 2 + 1 := by simp [margin]
  generalize e.quoted (Text.lines source) = line at hlt hoperator hdiagnostic
  have hsplit : line = line.take (e.position.column - 1) ++
      e.op.symbol :: line.drop (e.position.column - 1 + 1) := by
    rw [← hoperator, ← List.drop_eq_getElem_cons hlt, List.take_append_drop]
  have hlength : (line.take (e.position.column - 1)).length = e.position.column - 1 := by
    rw [List.length_take, Nat.min_eq_left (Nat.le_of_lt hlt)]
  refine ⟨line.take (e.position.column - 1), line.drop (e.position.column - 1 + 1),
    hsplit ▸ hdiagnostic, ?_, ?_, ?_, ?_⟩
  · omega
  · simp [margin]
  · omega
  · omega

/-- The operator of `print 2 + 3.5;` has the mark under it. -/
theorem mark_under_operator_sum :
    let source := "print 2 + 3.5;"
    let e : KindError := ⟨.plus, .int, .float, ⟨1, 9⟩⟩
    ∃ p, Program.ofSource source = .ok p ∧ e ∈ p.kindErrors ∧
      ∃ before after : List Char,
        Text.lines (e.diagnostic "sum.wb" (Text.lines source)) = Text.lines (e.header "sum.wb") ++
          #['\t' :: (before ++ e.op.symbol :: after), '\t' :: (e.margin ++ "^------".toList),
            e.message.toList, []] ∧
        before.length + 1 = e.position.column ∧
        (∀ c ∈ e.margin, c = ' ') ∧ e.margin.length = max 1 before.length ∧
        (e.margin.length = before.length ↔ e.position.column ≠ 1) := by
  intro source e
  obtain ⟨p, hp, herrors⟩ := Program.exists_ofSource_mixed tokenize_mixed
  have he : e ∈ p.kindErrors := by
    rw [herrors]
    exact List.mem_singleton_self e
  exact ⟨p, hp, he, mark_under_operator hp he "sum.wb"⟩

/-- An operator that is the first character of its line has one space before its mark. -/
theorem mark_beside_first_operator :
    let source := "print 2\n+ 3.5;"
    let e : KindError := ⟨.plus, .int, .float, ⟨2, 1⟩⟩
    (∃ p, Program.ofSource source = .ok p ∧ p.kindErrors = [e]) ∧
      ∃ line : List Char,
        (Text.lines (e.diagnostic "test.wb" (Text.lines source)))[2]? = some ('\t' :: line) ∧
        (line.takeWhile (· ≠ '^')).length ≠ e.position.column - 1 := by
  intro source e
  have htokens : tokenize source = [⟨.print, "print", ⟨1, 1⟩⟩, ⟨.integer, "2", ⟨1, 7⟩⟩,
      ⟨.plus, "+", ⟨2, 1⟩⟩, ⟨.float, "3.5", ⟨2, 3⟩⟩, ⟨.semi, ";", ⟨2, 6⟩⟩,
      ⟨.eof, "EOF", ⟨2, 7⟩⟩] := by
    decide +kernel
  refine ⟨Program.exists_ofSource_mixed htokens, " ^------".toList, ?_, by decide⟩
  decide +kernel

end KindError

end Reckon
