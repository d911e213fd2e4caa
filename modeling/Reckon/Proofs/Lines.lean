/-
# Characters by line and column

The lines of a text are the pieces between its line feeds, `List.splitOn`, so that the lines of two
texts with a line feed between them are those of the one and then those of the other.

A text of rows is one in which every line is ended by a line feed, and it has its rows in one way,
`Text.HasRows.unique`.

A place tells a line and a column.  Counted out from the offset of a character, it finds this
character again in the lines of the text, `Text.charAt?_ofOffset`.
-/
import Mathlib.Data.List.TakeWhile
import Reckon.Proofs.Offsets
import Reckon.Text.Lines

namespace Reckon.Text

/-! ## Lines -/

lemma newline_not_mem_append {s t : String} (hs : '\n' ∉ s.toList) (ht : '\n' ∉ t.toList) :
    '\n' ∉ (s ++ t).toList := by
  rw [String.toList_append, List.mem_append, not_or]
  exact ⟨hs, ht⟩

lemma newline_not_mem_takeWhile (cs : List Char) : '\n' ∉ cs.takeWhile (· ≠ '\n') := by
  intro hmem
  simpa using List.mem_takeWhile_imp hmem

lemma linesOnto_eq (found : Array (List Char)) (cs : List Char) :
    linesOnto found cs = found ++ (cs.splitOn '\n').toArray := by
  induction hn : cs.length using Nat.strongRecOn generalizing found cs with
  | ind n ih =>
    subst hn
    have hsplit : cs.takeWhile (· ≠ '\n') ++ cs.dropWhile (· ≠ '\n') = cs :=
      List.takeWhile_append_dropWhile
    have hline := newline_not_mem_takeWhile cs
    rw [linesOnto]
    split
    · rename_i hnil
      rw [hnil, List.append_nil] at hsplit
      rw [hsplit] at hline ⊢
      rw [List.splitOn_eq_singleton hline, ← Array.push_eq_append]
    · rename_i c rest hcons
      have hc : c = '\n' := by
        have hhead := List.head?_dropWhile_not (fun d => decide (d ≠ '\n')) cs
        rw [hcons] at hhead
        simpa using hhead
      subst hc
      rw [ih rest.length (length_lt_of_dropWhile_eq_cons hcons) _ rest rfl, Array.push_eq_append,
        Array.append_assoc]
      conv_rhs => rw [← hsplit, hcons, List.splitOn_append_cons_self_of_not_mem hline]
      simp

/-- The lines of a text are the pieces between its line feeds. -/
theorem lines_eq (source : String) : lines source = (source.toList.splitOn '\n').toArray := by
  rw [lines, linesOnto_eq, Array.empty_append]

lemma lines_append (s t : String) : lines (s ++ "\n" ++ t) = lines s ++ lines t := by
  have htoList : (s ++ "\n" ++ t).toList = s.toList ++ '\n' :: t.toList := by simp
  rw [lines_eq, lines_eq, lines_eq, htoList, List.splitOn_append_cons_self]
  simp

lemma lines_eq_singleton {s : String} (h : '\n' ∉ s.toList) : lines s = #[s.toList] := by
  rw [lines_eq, List.splitOn_eq_singleton h]

lemma length_splitOn (cs : List Char) : (cs.splitOn '\n').length = 1 + cs.count '\n' := by
  induction cs with
  | nil => rfl
  | cons c cs ih =>
    rw [List.splitOn_cons_eq_if_modifyHead, List.count_cons]
    by_cases h : c = '\n'
    · simp only [h, beq_self_eq_true, if_true, List.length_cons, ih]
      omega
    · simp [h, ih]

/-- There is one line more than there are line feeds. -/
lemma size_lines (source : String) : (lines source).size = 1 + source.toList.count '\n' := by
  rw [lines_eq, List.size_toArray, length_splitOn]

/-- A line has no line feed. -/
lemma newline_not_mem_splitOn (cs : List Char) : ∀ line ∈ cs.splitOn '\n', '\n' ∉ line := by
  induction cs with
  | nil => simp [List.splitOn_nil]
  | cons c cs ih =>
    rw [List.splitOn_cons_eq_if_modifyHead]
    by_cases h : c = '\n'
    · simpa [h] using ih
    · obtain ⟨line, lines, hlines⟩ := List.exists_cons_of_ne_nil (List.splitOn_ne_nil '\n' cs)
      rw [hlines] at ih ⊢
      simp only [beq_eq_false_iff_ne.mpr h, Bool.false_eq_true, if_false, List.modifyHead_cons]
      obtain ⟨hline, hrest⟩ := List.forall_mem_cons.mp ih
      refine List.forall_mem_cons.mpr ⟨?_, hrest⟩
      simpa [eq_comm, h] using hline

/-! ## Rows -/

/-- A text is made of rows without a line feed, each of which is followed by one. -/
structure HasRows (text : String) (rows : List String) : Prop where
  text_eq : text = String.join (rows.map (· ++ "\n"))
  newline_not_mem : ∀ row ∈ rows, '\n' ∉ row.toList

namespace HasRows

variable {text : String} {rows rows' : List String}

/-- The lines of a text of rows are its rows, and behind the last one there is nothing. -/
lemma lines_eq (h : HasRows text rows) :
    lines text = (rows.map String.toList ++ [[]]).toArray := by
  obtain ⟨rfl, hrows⟩ := h
  induction rows with
  | nil => exact lines_eq_singleton (by simp)
  | cons row rows ih =>
    obtain ⟨hrow, hrest⟩ := List.forall_mem_cons.mp hrows
    rw [List.map_cons, String.join_cons, lines_append, lines_eq_singleton hrow, ih hrest]
    simp

/-- A text has its rows in one way. -/
lemma unique (h : HasRows text rows) (h' : HasRows text rows') : rows = rows' := by
  have hlines := h.lines_eq.symm.trans h'.lines_eq
  have htexts := List.append_cancel_right (congrArg Array.toList hlines)
  exact (List.map_inj_right fun _ _ => String.toList_inj.mp).mp htexts

/-- A text that is put together row by row. -/
lemma of_foldl {α : Type} {onto : String → α → String} {row : α → String}
    (honto : ∀ before x, onto before x = before ++ (row x ++ "\n")) (xs : List α)
    (hrows : ∀ x ∈ xs, '\n' ∉ (row x).toList) : HasRows (xs.foldl onto "") (xs.map row) where
  text_eq := by
    have honto' : onto = fun before x => before ++ (row x ++ "\n") := by
      funext before x
      exact honto before x
    rw [honto', String.join_eq_foldl, List.map_map, List.foldl_map]
    rfl
  newline_not_mem := List.forall_mem_map.mpr hrows

end HasRows

/-! ## Characters -/

/-- The character of a source text at a place. -/
def charAt? (source : String) (p : Position) : Option Char :=
  (lines source)[p.line - 1]?.bind fun cs => cs[p.column - 1]?

/-- The characters of the first line. -/
lemma splitOn_head (line after : List Char) {c : Char} (hline : '\n' ∉ line) (hne : c ≠ '\n') :
    ∃ more lines, (line ++ c :: after).splitOn '\n' = (line ++ c :: more) :: lines := by
  induction line with
  | nil =>
    obtain ⟨more, lines, hlines⟩ := List.exists_cons_of_ne_nil (List.splitOn_ne_nil '\n' after)
    refine ⟨more, lines, ?_⟩
    rw [List.nil_append, List.splitOn_cons_eq_if_modifyHead, hlines, if_neg (by simpa using hne)]
    rfl
  | cons d line ih =>
    rw [List.mem_cons, not_or] at hline
    obtain ⟨more, lines, hlines⟩ := ih hline.2
    refine ⟨more, lines, ?_⟩
    rw [List.cons_append, List.splitOn_cons_eq_if_modifyHead, hlines,
      if_neg (by simpa using Ne.symm hline.1)]
    rfl

/-- A text ends with a line of its own. -/
lemma exists_lastLine (cs : List Char) : ∃ lines line, '\n' ∉ line ∧
    (∀ ds, (cs ++ ds).splitOn '\n' = lines ++ (line ++ ds).splitOn '\n') ∧
    lines.length = cs.count '\n' ∧ (cs.reverse.takeWhile (· ≠ '\n')).length = line.length := by
  by_cases h : '\n' ∈ cs
  · obtain ⟨xs, ys, hreverse, hxs⟩ := List.eq_append_cons_of_mem (List.mem_reverse.mpr h)
    have hcs : cs = ys.reverse ++ '\n' :: xs.reverse := by
      rw [← List.reverse_reverse cs, hreverse]
      simp
    refine ⟨ys.reverse.splitOn '\n', xs.reverse, by simpa using hxs, fun ds => ?_, ?_, ?_⟩
    · rw [hcs, List.append_assoc, List.cons_append, List.splitOn_append_cons_self]
    · have hzero : xs.reverse.count '\n' = 0 := List.count_eq_zero.mpr (by simpa using hxs)
      rw [length_splitOn, hcs, List.count_append, List.count_cons_self, hzero, Nat.add_comm]
    · have hall : ∀ x ∈ xs, decide (x ≠ '\n') = true :=
        fun x hx => decide_eq_true fun heq => hxs (heq ▸ hx)
      rw [hreverse, List.takeWhile_append_of_pos hall]
      simp
  · refine ⟨[], cs, h, fun ds => rfl, (List.count_eq_zero.mpr h).symm, ?_⟩
    rw [List.takeWhile_eq_self_iff.mpr, List.length_reverse]
    intro x hx
    exact decide_eq_true fun heq => h (heq ▸ List.mem_reverse.mp hx)

/-- The place of a character leads to it. -/
theorem charAt?_ofOffset {source : String} {o : ℕ} {c : Char} (h : source.toList[o]? = some c)
    (hne : c ≠ '\n') : charAt? source (.ofOffset source.toList o) = some c := by
  obtain ⟨lines, line, hline, hsplit, hlines, hcolumn⟩ := exists_lastLine (source.toList.take o)
  obtain ⟨more, rest, hhead⟩ := splitOn_head line (source.toList.drop (o + 1)) hline hne
  have hsource : source.toList = source.toList.take o ++ c :: source.toList.drop (o + 1) := by
    conv_lhs => rw [← List.take_append_drop o source.toList, List.drop_eq_getElem?_toList_append, h]
    rfl
  have hrow : (Position.ofOffset source.toList o).line - 1 = lines.length := by
    rw [hlines]
    exact Nat.add_sub_cancel_left 1 _
  have hcol : (Position.ofOffset source.toList o).column - 1 = line.length := by
    rw [← hcolumn]
    rfl
  rw [charAt?, lines_eq, hrow, hcol]
  conv_lhs => rw [hsource, hsplit, hhead]
  simp

end Reckon.Text
