/-
# Bounded output is cut off

A sink with room for `n` bytes holds the first `n` bytes of what a sink without a limit would hold,
whatever is done with it: `Sink.cut n refusal text` is the sink that has been given `text`, and each
step of a session takes it to the sink that has also been given what the step writes.  A program
that writes more than there is room for stops because of that, even if it would also fail otherwise;
later steps write nothing more, since no room is left.

All that is written is ASCII, so that the characters that a sink counts are bytes.  The main result
is `bounded_sink_truncates`.
-/
import Reckon.Proofs.BigStep
import Reckon.Proofs.Numerals
import Reckon.Session
import Reckon.Text.Printable

namespace Reckon

/-! ## Bytes -/

/-- All characters of a text are one byte each. -/
def IsAscii (text : String) : Prop := ∀ c ∈ text.toList, c.toNat < 0x80

lemma IsAscii.append {s t : String} (hs : IsAscii s) (ht : IsAscii t) : IsAscii (s ++ t) := by
  simpa only [IsAscii, String.toList_append] using List.forall_mem_append.mpr ⟨hs, ht⟩

lemma isAscii_join {texts : List String} (h : ∀ text ∈ texts, IsAscii text) :
    IsAscii (String.join texts) := by
  induction texts with
  | nil => simp [IsAscii]
  | cons text texts ih =>
    obtain ⟨htext, htexts⟩ := List.forall_mem_cons.mp h
    rw [String.join_cons]
    exact htext.append (ih htexts)

lemma toNat_of_isNumeric {c : Char} (h : isNumeric c = true) : c.toNat < 0x80 := by
  simp only [isNumeric, Bool.or_eq_true, decide_eq_true_eq] at h
  rcases h with (h | rfl) | rfl
  · have := Text.toNat_of_isAlphanum h
    omega
  · decide
  · decide

lemma Value.isAscii_line (v : Value) : IsAscii v.line := by
  refine IsAscii.append (fun c hc => toNat_of_isNumeric (v.scalar.isNumeric_text c hc)) ?_
  simp [IsAscii]

/-- The bytes that a sink holds. -/
def Sink.bytes (s : Sink) : List UInt8 := s.written.toByteArray.data.toList

lemma bytes_ofList {cs : List Char} (h : ∀ c ∈ cs, c.toNat < 0x80) :
    (String.ofList cs).toByteArray.data.toList = cs.map fun c => c.val.toUInt8 := by
  have hbytes : cs.flatMap String.utf8EncodeChar = cs.map fun c => c.val.toUInt8 := by
    induction cs with
    | nil => rfl
    | cons c cs ih =>
      obtain ⟨hc, hcs⟩ := List.forall_mem_cons.mp h
      have hsize : c.utf8Size = 1 :=
        Char.utf8Size_eq_one_iff.mpr (UInt32.le_iff_toNat_le.mpr (Nat.le_of_lt_succ hc))
      rw [List.flatMap_cons, String.utf8EncodeChar_eq_singleton hsize, ih hcs, List.map_cons,
        List.singleton_append]
  rw [String.toByteArray_ofList, List.utf8Encode, List.data_toByteArray, hbytes]

/-! ## Sinks that are cut off -/

namespace Sink

/-- The sink with room for `n` characters that has been given a text. -/
def cut (n : ℕ) (refusal : Refusal) (text : String) : Sink :=
  ⟨String.ofList (text.toList.take n), some (n - text.length), refusal⟩

/-- The sink without a limit that has been given a text. -/
def whole (text : String) : Sink := { unlimited with written := text }

lemma limited_eq_cut (n : ℕ) (refusal : Refusal) : limited n refusal = cut n refusal "" := by
  simp [limited, cut]

lemma bytes_whole {text : String} (h : IsAscii text) :
    (whole text).bytes = text.toList.map fun c => c.val.toUInt8 := by
  rw [bytes, ← bytes_ofList h, String.ofList_toList]
  rfl

lemma bytes_cut {text : String} (h : IsAscii text) (n : ℕ) (refusal : Refusal) :
    (cut n refusal text).bytes = (whole text).bytes.take n := by
  rw [bytes_whole h, ← List.map_take, bytes, cut, bytes_ofList]
  exact fun c hc => h c (List.mem_of_mem_take hc)

variable {n : ℕ} {refusal : Refusal}

/-- A text that is not empty is written if there is room for all of it, and the part that there is
room for is kept in any case. -/
lemma write_cut (text : String) {added : String} (h : 0 < added.length) :
    (cut n refusal text).write added =
      (if (text ++ added).length ≤ n then .ok () else .error refusal,
        cut n refusal (text ++ added)) := by
  have hlength : (text ++ added).length = text.length + added.length := String.length_append ..
  have htake : String.ofList (text.toList.take n) ++
      String.ofList (added.toList.take (n - text.length)) =
        String.ofList ((text ++ added).toList.take n) := by
    rw [← String.ofList_append, String.toList_append, List.take_append, String.length_toList]
  rw [hlength]
  by_cases hfits : text.length + added.length ≤ n
  · have hroom : added.length ≤ n - text.length := by omega
    have hall : added.toList.take (n - text.length) = added.toList := List.take_of_length_le hroom
    rw [hall, String.ofList_toList] at htake
    simp only [cut, write, if_pos hroom, if_pos hfits, htake, hlength, Nat.sub_sub]
  · have hroom : ¬ added.length ≤ n - text.length := by omega
    have hnone : n - (text.length + added.length) = 0 := by omega
    simp only [cut, write, if_neg hroom, if_neg hfits, htake, hlength, hnone]

/-- What follows when there is no more room is lost. -/
lemma cut_append {text : String} (h : n ≤ text.length) (added : String) :
    cut n refusal (text ++ added) = cut n refusal text := by
  have htake : (text ++ added).toList.take n = text.toList.take n := by
    rw [String.toList_append, List.take_append_of_le_length (by rwa [String.length_toList])]
  have hroom : n - (text ++ added).length = n - text.length := by
    rw [String.length_append]
    omega
  rw [cut, cut, htake, hroom]

lemma printLine_cut (text : String) (v : Value) :
    (cut n refusal text).printLine v.scalar =
      (if (text ++ v.line).length ≤ n then .ok () else .error ⟨.output refusal, none⟩,
        cut n refusal (text ++ v.line)) := by
  have hline : 0 < v.line.length := by
    rw [Value.line, String.length_append]
    exact Nat.lt_add_left _ (by decide)
  rw [printLine, ← Value.line, write_cut text hline]
  split_ifs <;> rfl

end Sink

/-! ## Programs -/

variable {n : ℕ} {refusal : Refusal}

/-- A program writes its lines as far as they fit.  If they do not, that is what it ends with. -/
lemma Runs.executeAll_cut {ss : List Stmt} {lines : List String} {result : Except RunError Unit}
    (h : Runs ss lines result) (text : String) :
    executeAll ss (.cut n refusal text) =
      (if lines = [] ∨ (text ++ String.join lines).length ≤ n then result
        else .error ⟨.output refusal, none⟩, .cut n refusal (text ++ String.join lines)) := by
  induction h generalizing text with
  | nil => simp [executeAll]
  | @print e v ss lines result value rest ih =>
    have hstep : Stmt.execute (.print e) (.cut n refusal text) =
        (if (text ++ v.line).length ≤ n then .ok () else .error ⟨.output refusal, none⟩,
          .cut n refusal (text ++ v.line)) := by
      simp only [Stmt.execute, Expr.evaluate_eq_eval, value.eval_eq, Sink.printLine_cut]
    have hlength : (text ++ v.line ++ String.join lines).length =
        (text ++ v.line).length + (String.join lines).length := String.length_append ..
    rw [executeAll, hstep, String.join_cons, ← String.append_assoc]
    by_cases hfits : (text ++ v.line).length ≤ n
    · simp only [if_pos hfits, ih, reduceCtorEq, false_or]
      rcases lines with - | ⟨line, lines⟩
      · have hjoin : text ++ v.line ++ String.join [] = text ++ v.line := by simp
        simp only [hjoin, if_pos hfits, true_or, if_true]
      · simp only [reduceCtorEq, false_or]
    · have hmore : ¬ (text ++ v.line ++ String.join lines).length ≤ n := by omega
      have hfull : n ≤ (text ++ v.line).length := by omega
      simp only [if_neg hfits, if_neg hmore, reduceCtorEq, false_or, Sink.cut_append hfull]
  | fails value => simp [executeAll, Stmt.execute, value.eval_eq]

lemma Runs.isAscii {ss : List Stmt} {lines : List String} {result : Except RunError Unit}
    (h : Runs ss lines result) : ∀ line ∈ lines, IsAscii line := by
  induction h with
  | nil => simp
  | print value rest ih => exact List.forall_mem_cons.mpr ⟨Value.isAscii_line _, ih⟩
  | fails value => simp

/-! ## Sessions -/

/-- Something that is done with a sink writes a text: to a sink without a limit the whole of it, and
to any other what fits. -/
structure Adds {α : Type} (operation : Sink → α × Sink) (before added : String) : Prop where
  ascii : IsAscii added
  whole : (operation (.whole before)).2 = .whole (before ++ added)
  cut : ∀ n refusal, (operation (.cut n refusal before)).2 = .cut n refusal (before ++ added)

lemma adds_nothing {α : Type} (result : α) (before : String) :
    Adds (fun sink => (result, sink)) before "" := by
  refine ⟨by simp [IsAscii], ?_, fun n refusal => ?_⟩
  · rw [String.append_empty]
  · rw [String.append_empty]

lemma Adds.map {α β : Type} {operation : Sink → α × Sink} {before added : String}
    (h : Adds operation before added) (f : α → β) :
    Adds (fun sink => (operation sink).map f id) before added :=
  ⟨h.ascii, h.whole, h.cut⟩

lemma exists_adds_execute (p : Program) (before : String) :
    ∃ added, Adds (fun sink => conclude (p.execute sink)) before added := by
  have hconclude (outcome : Except RunError Unit × Sink) : (conclude outcome).2 = outcome.2 := by
    obtain ⟨result, sink⟩ := outcome
    cases result <;> rfl
  obtain ⟨lines, result, h⟩ := Runs.exists_runs p.statements
  refine ⟨String.join lines, isAscii_join h.isAscii, ?_, fun n refusal => ?_⟩
  · rw [hconclude]
    exact congrArg Prod.snd (h.executeAll_eq before .full)
  · rw [hconclude]
    exact congrArg Prod.snd (h.executeAll_cut before)

/-- Every step of a session writes a text, which does not depend on the room for it. -/
lemma Step.exists_adds (step : Step) (before : String) :
    ∃ added, Adds step.perform before added := by
  cases step with
  | print a =>
    refine ⟨(Value.literal a).line, Value.isAscii_line _, rfl, fun n refusal => ?_⟩
    exact congrArg Prod.snd (Sink.printLine_cut before (Value.literal a))
  | combine op a b => exact ⟨"", adds_nothing _ before⟩
  | sign op a => exact ⟨"", adds_nothing _ before⟩
  | execute p =>
    obtain ⟨added, h⟩ := exists_adds_execute p before
    exact ⟨added, h.map Response.ended⟩
  | run file source =>
    suffices hrun : ∃ added, Adds (Reckon.run file source) before added by
      obtain ⟨added, h⟩ := hrun
      exact ⟨added, h.map Response.ended⟩
    unfold Reckon.run
    cases Program.ofSource source with
    | error err => exact ⟨"", adds_nothing _ before⟩
    | ok p =>
      dsimp only
      cases p.diagnostics file source with
      | nil => exact exists_adds_execute p before
      | cons d ds => exact ⟨"", adds_nothing _ before⟩
  | runUnchecked source =>
    suffices hrun : ∃ added, Adds (Reckon.runUnchecked source) before added by
      obtain ⟨added, h⟩ := hrun
      exact ⟨added, h.map Response.ended⟩
    unfold Reckon.runUnchecked
    cases Program.ofSource source with
    | error err => exact ⟨"", adds_nothing _ before⟩
    | ok p => exact exists_adds_execute p before

lemma performAll_cut (steps : List Step) {before : String} (h : IsAscii before) (n : ℕ)
    (refusal : Refusal) : (performAll steps (.cut n refusal before)).map (·.2.bytes) =
      (performAll steps (.whole before)).map (·.2.bytes.take n) := by
  induction steps generalizing before with
  | nil => rfl
  | cons step steps ih =>
    obtain ⟨added, hadds⟩ := step.exists_adds before
    have hafter := h.append hadds.ascii
    simp only [performAll, List.map_cons, hadds.cut, hadds.whole, ih hafter, Sink.bytes_cut hafter]

/-! ## Sinks with and without a limit -/

/-- **A bounded sink only cuts off.**

* A program leaves in a sink with room for `n` bytes the first `n` of those that it writes to a sink
  without a limit.  If these are at most `n`, it ends as it does there, and otherwise it ends
  because its output is refused.
* After every step of a session the sink holds the first `n` of the bytes that a sink without a
  limit holds after this step. -/
theorem bounded_sink_truncates (n : ℕ) (refusal : Refusal) :
    (∀ p : Program,
      (p.execute (.limited n refusal)).2.bytes = (p.execute .unlimited).2.bytes.take n ∧
      (p.execute (.limited n refusal)).1 =
        if (p.execute .unlimited).2.bytes.length ≤ n then (p.execute .unlimited).1
        else .error ⟨.output refusal, none⟩) ∧
    ∀ steps : List Step, (performAll steps (.limited n refusal)).map (·.2.bytes) =
      (performAll steps .unlimited).map (·.2.bytes.take n) := by
  rw [Sink.limited_eq_cut]
  refine ⟨fun p => ?_, fun steps => performAll_cut steps (by simp [IsAscii]) n refusal⟩
  obtain ⟨lines, result, h⟩ := Runs.exists_runs p.statements
  have hascii := isAscii_join h.isAscii
  have hcut : executeAll p.statements (.cut n refusal "") = _ := h.executeAll_cut ""
  have hwhole := h.executeAll_eq "" .full
  rw [String.empty_append] at hcut hwhole
  have hlength : (Sink.whole (String.join lines)).bytes.length = (String.join lines).length := by
    rw [Sink.bytes_whole hascii, List.length_map, String.length_toList]
  have hunlimited : p.execute .unlimited = (result, .whole (String.join lines)) := hwhole
  rw [Program.execute, hcut, hunlimited]
  refine ⟨Sink.bytes_cut hascii n refusal, ?_⟩
  simp only [hlength]
  -- a program that writes nothing fits anywhere
  rcases lines with - | ⟨line, lines⟩
  · simp
  · simp only [reduceCtorEq, false_or]

end Reckon
