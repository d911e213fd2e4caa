/-
# What the check keeps from running would not have run to its end

A program with an error in the kinds of its operands is not executed.  It loses nothing: if it
were, it would stop, either at the operator of its first error and with the operands that the error
tells, or at an operator that is applied before.  The comparison of the check with the execution is
one of places in the order of evaluation, since the errors are found in that order and the first
failure is the one that counts.
-/
import Reckon.Proofs.Exactness
import Reckon.Proofs.Kinds
import Reckon.Run

namespace Reckon

/-! ## The first error and the first failure -/

/-- The first error of a program is that of the first site that has one. -/
lemma Program.exists_site_of_kindErrors {p : Program} {e : KindError} {rest : List KindError}
    (h : p.kindErrors = e :: rest) :
    ∃ (i : ℕ) (s : Site), p.sites[i]? = some s ∧ s.kindError? = some e ∧
      ∀ k < i, ∀ t : Site, p.sites[k]? = some t → t.kindError? = none := by
  rw [kindErrors_eq_filterMap, List.filterMap_eq_cons_iff] at h
  obtain ⟨before, s, after, hsites, hbefore, hs, -⟩ := h
  refine ⟨before.length, s, ?_, hs, ?_⟩
  · rw [hsites, List.getElem?_append_right (Nat.le_refl _), Nat.sub_self]
    rfl
  · intro k hk t ht
    rw [hsites, List.getElem?_append_left hk] at ht
    exact hbefore t (List.mem_of_getElem? ht)

/-- A program with an error is executed to its end on no sink. -/
lemma Program.execute_ne_ok {p : Program} (h : p.kindErrors ≠ []) (sink : Sink) :
    (p.execute sink).1 ≠ .ok () := by
  intro hrun
  obtain ⟨e, rest, hcons⟩ := List.exists_cons_of_ne_nil h
  obtain ⟨i, s, hs, herror, -⟩ := exists_site_of_kindErrors hcons
  have hvalue := hasValue_of_executeAll hrun s (List.mem_of_getElem? hs)
  exact Site.not_hasValue_of_kindError herror hvalue

/-- The first failure of a list of sites is at a site with an error, and then with the operands
that the error tells, or before it. -/
lemma FailsAt.lt_or_eq_of_kindError {sites : List Site} {i j : ℕ} {s : Site} {e : KindError}
    {err : RunError} (h : FailsAt sites j err) (hs : sites[i]? = some s)
    (herror : s.kindError? = some e) :
    j < i ∨ j = i ∧
      err = ⟨.arithmetic (.unsupportedOperands e.op e.left e.right), some e.position⟩ := by
  rcases Nat.lt_trichotomy j i with hlt | rfl | hgt
  · exact .inl hlt
  · obtain ⟨t, ht, hraises⟩ := h.raises
    obtain rfl : t = s := Option.some.inj (ht.symm.trans hs)
    exact .inr ⟨rfl, Site.eq_of_raises herror hraises⟩
  · exact absurd (h.earlier i hgt s hs) (Site.not_hasValue_of_kindError herror)

/-! ## Source texts -/

lemma Program.diagnostics_eq_nil_iff {p : Program} {file source : String} :
    p.diagnostics file source = [] ↔ p.kindErrors = [] := by
  simp [diagnostics]

/-- A program without errors is executed. -/
lemma run_eq_conclude {source : String} {p : Program} (h : Program.ofSource source = .ok p)
    (hnil : p.kindErrors = []) (file : String) (sink : Sink) :
    run file source sink = conclude (p.execute sink) := by
  have hdiagnostics : p.diagnostics file source = [] := Program.diagnostics_eq_nil_iff.mpr hnil
  simp only [run, h, hdiagnostics]

/-- A program with errors is rejected. -/
lemma exists_run_eq_rejected {source : String} {p : Program} (h : Program.ofSource source = .ok p)
    (hne : p.kindErrors ≠ []) (file : String) (sink : Sink) :
    ∃ ds, run file source sink = (.ok (.rejected ds), sink) := by
  simp only [run, h]
  cases hdiagnostics : p.diagnostics file source with
  | nil => exact absurd (Program.diagnostics_eq_nil_iff.mp hdiagnostics) hne
  | cons d ds => exact ⟨_, rfl⟩

/-- What is concluded from an execution is no rejection. -/
lemma conclude_ne_rejected (outcome : Except RunError Unit × Sink) (ds : List String) :
    (conclude outcome).1 ≠ .ok (.rejected ds) := by
  obtain ⟨result, sink⟩ := outcome
  cases result <;> simp [conclude]

lemma conclude_eq_ok {outcome : Except RunError Unit × Sink} {o : Outcome}
    (h : (conclude outcome).1 = .ok o) : outcome.1 = .ok () ∧ o = .executed := by
  obtain ⟨result, sink⟩ := outcome
  cases result with
  | ok u =>
    obtain rfl := Except.ok.inj h
    exact ⟨rfl, rfl⟩
  | error err => exact absurd h (by simp [conclude])

/-- A rejected source text is a program with an error, and nothing is written. -/
lemma run_eq_rejected {file source : String} {sink : Sink} {ds : List String}
    (h : (run file source sink).1 = .ok (.rejected ds)) :
    ∃ p, Program.ofSource source = .ok p ∧ p.kindErrors ≠ [] ∧
      (run file source sink).2 = sink := by
  unfold run at h ⊢
  cases hp : Program.ofSource source with
  | error err => simp [hp] at h
  | ok p =>
    simp only [hp] at h ⊢
    cases hds : p.diagnostics file source with
    | nil =>
      rw [hds] at h
      exact absurd h (conclude_ne_rejected _ ds)
    | cons d ds' =>
      refine ⟨p, rfl, fun hnil => ?_, rfl⟩
      rw [Program.diagnostics_eq_nil_iff.mpr hnil] at hds
      exact absurd hds (by simp)

/-- A source text that is executed to its end without the check is a program that is. -/
lemma runUnchecked_eq_ok {source : String} {sink : Sink} {o : Outcome}
    (h : (runUnchecked source sink).1 = .ok o) :
    ∃ p, Program.ofSource source = .ok p ∧ (p.execute sink).1 = .ok () ∧ o = .executed := by
  unfold runUnchecked at h
  cases hp : Program.ofSource source with
  | error err => simp [hp] at h
  | ok p =>
    simp only [hp] at h
    obtain ⟨hrun, ho⟩ := conclude_eq_ok h
    exact ⟨p, rfl, hrun, ho⟩

/-- The error of a sum of an integer and a number that is none. -/
lemma Program.exists_ofSource_mixed {source : String} {p q r s t u : Position}
    (h : tokenize source = [⟨.print, "print", p⟩, ⟨.integer, "2", q⟩, ⟨.plus, "+", r⟩,
      ⟨.float, "3.5", s⟩, ⟨.semi, ";", t⟩, ⟨.eof, "EOF", u⟩]) :
    ∃ program, ofSource source = .ok program ∧
      program.kindErrors = [⟨.plus, .int, .float, r⟩] := by
  obtain ⟨x, hx⟩ := Option.isSome_iff_exists.mp
    (show (Numeral.float32? "3.5".toList).isSome = true by decide)
  have hleft : (Expr.int 2 q).Yields [⟨.integer, "2", q⟩] :=
    .int (t := ⟨.integer, "2", q⟩) rfl (show Numeral.int32? "2".toList = some 2 by decide)
  have hright : (Expr.float x s).Yields [⟨.float, "3.5", s⟩] :=
    .float (t := ⟨.float, "3.5", s⟩) rfl hx
  have hyields : (Expr.binary .plus (.int 2 q) (.float x s) r).Yields
      [⟨.integer, "2", q⟩, ⟨.plus, "+", r⟩, ⟨.float, "3.5", s⟩] :=
    hleft.binary (t := ⟨.plus, "+", r⟩) rfl hright
  have hcanonical : (Expr.binary .plus (.int 2 q) (.float x s) r).Canonical :=
    .binary (.int 2 q) (.float x s) (Nat.zero_le _) (Nat.zero_le _) id
  refine ⟨_, ofSource_of_yields h rfl rfl hyields hcanonical (by simp), ?_⟩
  rw [kindErrors_eq]
  rfl

lemma tokenize_mixed : tokenize "print 2 + 3.5;" = [⟨.print, "print", ⟨1, 1⟩⟩,
    ⟨.integer, "2", ⟨1, 7⟩⟩, ⟨.plus, "+", ⟨1, 9⟩⟩, ⟨.float, "3.5", ⟨1, 11⟩⟩,
    ⟨.semi, ";", ⟨1, 14⟩⟩, ⟨.eof, "EOF", ⟨1, 15⟩⟩] := by
  decide +kernel

/-- A sum of integers is executed without the check. -/
lemma runUnchecked_integers :
    runUnchecked "print 1 + 2;" .unlimited = (.ok .executed, ⟨"3\n", none, .full⟩) := by
  have htokens : tokenize "print 1 + 2;" = [⟨.print, "print", ⟨1, 1⟩⟩, ⟨.integer, "1", ⟨1, 7⟩⟩,
      ⟨.plus, "+", ⟨1, 9⟩⟩, ⟨.integer, "2", ⟨1, 11⟩⟩, ⟨.semi, ";", ⟨1, 12⟩⟩,
      ⟨.eof, "EOF", ⟨1, 13⟩⟩] := by
    decide +kernel
  have hone : (Expr.int 1 ⟨1, 7⟩).Yields [⟨.integer, "1", ⟨1, 7⟩⟩] :=
    .int (t := ⟨.integer, "1", ⟨1, 7⟩⟩) rfl (by decide)
  have htwo : (Expr.int 2 ⟨1, 11⟩).Yields [⟨.integer, "2", ⟨1, 11⟩⟩] :=
    .int (t := ⟨.integer, "2", ⟨1, 11⟩⟩) rfl (by decide)
  have hyields : (Expr.binary .plus (.int 1 ⟨1, 7⟩) (.int 2 ⟨1, 11⟩) ⟨1, 9⟩).Yields
      [⟨.integer, "1", ⟨1, 7⟩⟩, ⟨.plus, "+", ⟨1, 9⟩⟩, ⟨.integer, "2", ⟨1, 11⟩⟩] :=
    hone.binary (t := ⟨.plus, "+", ⟨1, 9⟩⟩) rfl htwo
  have hcanonical : (Expr.binary .plus (.int 1 ⟨1, 7⟩) (.int 2 ⟨1, 11⟩) ⟨1, 9⟩).Canonical :=
    .binary (.int 1 _) (.int 2 _) (Nat.zero_le _) (Nat.zero_le _) id
  have hread := Program.ofSource_of_yields htokens rfl rfl hyields hcanonical (by simp)
  have hvalue : (Expr.binary .plus (.int 1 ⟨1, 7⟩) (.int 2 ⟨1, 11⟩) ⟨1, 9⟩).eval =
      .ok (.computed (.int 3)) := rfl
  have htext : (Value.computed (.int 3)).scalar.text ++ "\n" = "3\n" := by decide +kernel
  simp [runUnchecked, hread, Program.execute, executeAll, Stmt.execute, Expr.evaluate_eq_eval,
    hvalue, Sink.printLine, Sink.unlimited, conclude, htext]

/-- **The check rejects no program that would run to its end.**

* If a program has errors, then with a sink that takes everything it fails, at the first site that
  has an error and with its operands, or at an earlier site.
* A source text that is rejected has written nothing, and without the check it runs to its end on
  no sink.
* A source text that runs to its end without the check does so with it, and leaves the sink in the
  same state. -/
theorem check_rejects_only_failing :
    (∀ (p : Program) (e : KindError) (rest : List KindError), p.kindErrors = e :: rest →
      ∀ (written : String) (refusal : Refusal),
      ∃ (i : ℕ) (s : Site) (j : ℕ) (err : RunError),
        p.sites[i]? = some s ∧ s.kindError? = some e ∧
        (∀ k < i, ∀ t : Site, p.sites[k]? = some t → t.kindError? = none) ∧
        (p.execute ⟨written, none, refusal⟩).1 = .error err ∧ FailsAt p.sites j err ∧
        (j < i ∨ j = i ∧
          err = ⟨.arithmetic (.unsupportedOperands e.op e.left e.right), some e.position⟩)) ∧
    (∀ (file source : String) (sink : Sink) (ds : List String),
      (run file source sink).1 = .ok (.rejected ds) →
      (run file source sink).2 = sink ∧
        ∀ (sink' : Sink) (o : Outcome), (runUnchecked source sink').1 ≠ .ok o) ∧
    (∀ (file source : String) (sink : Sink) (o : Outcome),
      (runUnchecked source sink).1 = .ok o →
      run file source sink = (.ok .executed, (runUnchecked source sink).2)) := by
  refine ⟨?_, ?_, ?_⟩
  · intro p e rest h written refusal
    obtain ⟨i, s, hs, herror, hfirst⟩ := Program.exists_site_of_kindErrors h
    have hne : p.kindErrors ≠ [] := by rw [h]; exact List.cons_ne_nil _ _
    cases hrun : (p.execute ⟨written, none, refusal⟩).1 with
    | ok u => exact absurd hrun (Program.execute_ne_ok hne _)
    | error err =>
      obtain ⟨j, hj⟩ := (Program.execute_eq_error_iff rfl).mp hrun
      exact ⟨i, s, j, err, hs, herror, hfirst, rfl, hj, hj.lt_or_eq_of_kindError hs herror⟩
  · intro file source sink ds h
    obtain ⟨p, hp, hne, hsink⟩ := run_eq_rejected h
    refine ⟨hsink, fun sink' o hok => ?_⟩
    obtain ⟨p', hp', hrun, -⟩ := runUnchecked_eq_ok hok
    obtain rfl : p = p' := Except.ok.inj (hp.symm.trans hp')
    exact Program.execute_ne_ok hne sink' hrun
  · intro file source sink o h
    obtain ⟨p, hp, hrun, -⟩ := runUnchecked_eq_ok h
    have hnil : p.kindErrors = [] := by
      by_contra hne
      exact Program.execute_ne_ok hne sink hrun
    rcases hexec : p.execute sink with ⟨result, sink'⟩
    obtain rfl : result = .ok () := by rw [← hrun, hexec]
    have hdiagnostics : p.diagnostics file source = [] := Program.diagnostics_eq_nil_iff.mpr hnil
    simp only [run, runUnchecked, hp, hdiagnostics, hexec, conclude]

/-- A sum of an integer and a number that is none is rejected, and fails.  With a division by zero
above it that fails first.  A sum of integers is executed, with the check and without. -/
theorem check_rejects_only_failing_sums :
    let program : Program :=
      ⟨[.print (.binary .divide (.int 1 ⟨1, 7⟩) (.int 0 ⟨1, 11⟩) ⟨1, 9⟩),
        .print (.binary .plus (.int 1 ⟨2, 7⟩) (.float 2 ⟨2, 11⟩) ⟨2, 9⟩)]⟩
    let e : KindError := ⟨.plus, .int, .float, ⟨2, 9⟩⟩
    (program.kindErrors = [e] ∧ ∃ (i : ℕ) (s : Site) (j : ℕ) (err : RunError),
      program.sites[i]? = some s ∧ s.kindError? = some e ∧
        (∀ k < i, ∀ t : Site, program.sites[k]? = some t → t.kindError? = none) ∧
        (program.execute .unlimited).1 = .error err ∧ FailsAt program.sites j err ∧
        (j < i ∨ j = i ∧
          err = ⟨.arithmetic (.unsupportedOperands e.op e.left e.right), some e.position⟩)) ∧
    (∃ ds, (run "sum.wb" "print 2 + 3.5;" .unlimited).1 = .ok (.rejected ds) ∧
      (run "sum.wb" "print 2 + 3.5;" .unlimited).2 = .unlimited ∧
        ∀ (sink : Sink) (o : Outcome), (runUnchecked "print 2 + 3.5;" sink).1 ≠ .ok o) ∧
    (runUnchecked "print 1 + 2;" .unlimited).1 = .ok .executed ∧
      run "sum.wb" "print 1 + 2;" .unlimited = (.ok .executed, ⟨"3\n", none, .full⟩) := by
  intro program e
  obtain ⟨hfails, hrejected, hexecuted⟩ := check_rejects_only_failing
  have herrors : program.kindErrors = [e] := by
    rw [Program.kindErrors_eq]
    rfl
  obtain ⟨p, hp, hp'⟩ := Program.exists_ofSource_mixed tokenize_mixed
  obtain ⟨ds, hds⟩ := exists_run_eq_rejected hp (by simp [hp']) "sum.wb" .unlimited
  have hone := congrArg Prod.fst runUnchecked_integers
  have hrun := hexecuted "sum.wb" _ _ _ hone
  rw [runUnchecked_integers] at hrun
  have hds' := congrArg Prod.fst hds
  exact ⟨⟨herrors, hfails program e [] herrors "" .full⟩,
    ⟨ds, hds', hrejected "sum.wb" _ _ ds hds'⟩, hone, hrun⟩

-- The failure can come before the operator that is in error.
example (p q r p' q' r' : Position) :
    let program : Program :=
      ⟨[.print (.binary .divide (.int 1 p) (.int 0 q) r),
        .print (.binary .plus (.int 1 p') (.float 2 q') r')]⟩
    program.kindErrors = [⟨.plus, .int, .float, r'⟩] ∧
      (program.execute .unlimited).1 = .error ⟨.arithmetic .divisionByZero, some r⟩ := by
  constructor
  · cbv
  · cbv

end Reckon
