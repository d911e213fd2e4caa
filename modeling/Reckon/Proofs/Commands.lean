/-
# The commands agree

Each command reads the source text again, and what it answers is decided by what the text is.  If it
is not a program, every command but the listing of tokens answers with the error of the parser, on a
line of its own.  If it is one, its errors in kinds decide: if there are any, checking and running
both answer with the diagnostics, and otherwise the check makes no difference to the run.

Leaving out the check does not change the exit code, since a program that is rejected fails when it
is executed, `Program.execute_ne_ok`.

Which command a call names is found out by a reader of command lines.  What is said of calls is said
for every reader that yields what is typed, `Arguments.AsTyped`.
-/
import Reckon.Command
import Reckon.Proofs.Gate
import Reckon.Proofs.Pointing
import Reckon.Proofs.Terms

namespace Reckon

/-! ## Messages of the parser -/

lemma forall_mem_take_takeWhile {q r : Char → Bool} (h : ∀ c, q c = true → r c = true)
    (cs : List Char) : ∀ c ∈ cs.take (cs.takeWhile q).length, r c = true := by
  rw [← List.prefix_iff_eq_take.mp (List.takeWhile_prefix q)]
  exact fun c hc => h c (List.mem_takeWhile_imp hc)

/-- A numeral is made of digits and points. -/
lemma Munches.isPointOrDigit {c : Char} {cs : List Char} {kind : TokenKind} {n : ℕ}
    (h : Munches c cs kind n) (hkind : kind = .integer ∨ kind = .float) :
    ∀ d ∈ c :: cs.take n, isPointOrDigit d = true := by
  cases h with
  | block | line => exact absurd hkind (by simp)
  | word =>
    rcases wordKind_eq (c :: cs.takeWhile Text.isAlphabetic) with hword | hword
    all_goals
      rw [hword] at hkind
      exact absurd hkind (by simp)
  | float first =>
    exact List.forall_mem_cons.mpr ⟨first, forall_mem_take_takeWhile (fun _ hd => hd) cs⟩
  | integer first =>
    refine List.forall_mem_cons.mpr ⟨first, forall_mem_take_takeWhile (fun d hd => ?_) cs⟩
    exact isPointOrDigit_iff.mpr (.inl hd)
  | symbol symbol =>
    unfold symbol? at symbol
    split at symbol
    all_goals first | obtain rfl := Option.some.inj symbol; simp at hkind | simp at symbol

lemma Cuts.isPointOrDigit_lexeme {p : Position} {cs : List Char} {ts : List Token}
    (h : Cuts p cs ts) : ∀ t ∈ ts, t.kind = .integer ∨ t.kind = .float →
      ∀ c ∈ t.lexeme.toList, isPointOrDigit c = true := by
  induction h with
  | done p =>
    refine List.forall_mem_singleton.mpr fun hkind => ?_
    exact absurd hkind (by simp [Token.endAt])
  | skip _ _ ih => exact ih
  | @token p c cs kind n ts some _ ih =>
    refine List.forall_mem_cons.mpr ⟨fun hkind => ?_, ih⟩
    rw [String.toList_ofList]
    exact (munch_eq_some_iff.mp some).isPointOrDigit hkind

lemma TokenKind.newline_not_mem_label (k : TokenKind) : '\n' ∉ k.label.toList := by
  cases k <;> decide

lemma newline_not_mem_toString (n : ℕ) : '\n' ∉ (toString n).toList :=
  fun hmem => absurd (isNumeric_toString n _ hmem) (by decide)

namespace ParseError

open Text (newline_not_mem_append)

/-- A cause is told on one line if the lexeme that it quotes is on one. -/
lemma Cause.newline_not_mem_message {cause : Cause}
    (h : ∀ lexeme, cause = .invalidInteger lexeme ∨ cause = .invalidFloat lexeme →
      '\n' ∉ lexeme.toList) : '\n' ∉ cause.message.toList := by
  have hlabel := TokenKind.newline_not_mem_label
  cases cause with
  | unexpectedToken expected found =>
    have hexpected := newline_not_mem_append (s := "expected ") (by decide) (hlabel expected)
    have hgot := newline_not_mem_append hexpected (t := ", got ") (by decide)
    exact newline_not_mem_append hgot (hlabel found)
  | unexpectedEnd expected =>
    have hexpectation : '\n' ∉ expected.label.toList := by
      cases expected with
      | token kind => exact hlabel kind
      | expression => decide
    have hexpected := newline_not_mem_append (s := "expected ") (by decide) hexpectation
    exact newline_not_mem_append hexpected (by decide)
  | noExpression found =>
    have hfound := newline_not_mem_append (s := "unexpected token ") (by decide) (hlabel found)
    exact newline_not_mem_append hfound (by decide)
  | invalidInteger lexeme =>
    have hlexeme := newline_not_mem_append (s := "invalid integer literal '") (by decide)
      (h lexeme (.inl rfl))
    exact newline_not_mem_append hlexeme (by decide)
  | invalidFloat lexeme =>
    have hlexeme := newline_not_mem_append (s := "invalid float literal '") (by decide)
      (h lexeme (.inr rfl))
    exact newline_not_mem_append hlexeme (by decide)

lemma PointsAt.newline_not_mem {source : String} {err : ParseError}
    (h : err.PointsAt source) : '\n' ∉ err.cause.message.toList := by
  refine Cause.newline_not_mem_message fun lexeme hlexeme hmem => ?_
  have hnumeral {t : Token} (ht : t ∈ tokenize source)
      (hkind : t.kind = .integer ∨ t.kind = .float) (hmem : '\n' ∈ t.lexeme.toList) : False :=
    absurd ((Cuts.tokenize source).isPointOrDigit_lexeme t ht hkind _ hmem) (by decide)
  cases h with
  | atEnd wanted => exact absurd hlexeme (by simp)
  | token mem stands tells =>
    cases tells with
    | unexpected | noExpression => exact absurd hlexeme (by simp)
    | integer kind unreadable =>
      obtain rfl : _ = lexeme := by simpa using hlexeme
      exact hnumeral mem (.inl kind) hmem
    | float kind unreadable =>
      obtain rfl : _ = lexeme := by simpa using hlexeme
      exact hnumeral mem (.inr kind) hmem

/-- A message of the parser is on one line, since it quotes no lexeme but that of a numeral. -/
lemma newline_not_mem_message {source : String} {err : ParseError}
    (h : Program.ofSource source = .error err) : '\n' ∉ err.message.toList := by
  have hline := newline_not_mem_append (s := "parse error at line ") (by decide)
    (newline_not_mem_toString err.position.line)
  have hcolumn := newline_not_mem_append (newline_not_mem_append hline (t := ", col ") (by decide))
    (newline_not_mem_toString err.position.column)
  exact newline_not_mem_append (newline_not_mem_append hcolumn (t := ": ") (by decide))
    (pointsAt_of_ofSource h).newline_not_mem

end ParseError

/-! ## Answers -/

variable {path source : String} {p : Program}

/-- Whatever is done with a text that is not a program, the answer is the error of the parser. -/
lemma Command.answer_of_error {e : ParseError} (h : Program.ofSource source = .error e)
    {command : Command} (hcommand : command ≠ .tokens) (unchecked : Bool) :
    command.answer unchecked path source = ⟨1, "", e.message ++ "\n"⟩ := by
  have hrun (file : String) :
      Reckon.run file source .unlimited = (.error (.parse e), .unlimited) := by
    simp only [Reckon.run, h]
  have hrunUnchecked : runUnchecked source .unlimited = (.error (.parse e), .unlimited) := by
    simp only [runUnchecked, h]
  cases command with
  | run =>
    cases unchecked with
    | true => exact congrArg Answer.ofRun hrunUnchecked
    | false => exact congrArg Answer.ofRun (hrun _)
  | check | parse =>
    simp only [answer, h]
    rfl
  | tokens => exact absurd rfl hcommand

section Program

variable (h : Program.ofSource source = .ok p)

include h

lemma Command.answer_parse (unchecked : Bool) : parse.answer unchecked path source =
    ⟨0, "Parsed OK: " ++ toString p.size ++ " statements\n" ++ p.listing, ""⟩ := by
  simp only [answer, h]
  rfl

lemma Command.answer_run_unchecked :
    run.answer true path source = .ofRun (conclude (p.execute .unlimited)) := by
  simp only [answer, runUnchecked, h, if_true]

/-- The check makes no difference to a program without errors. -/
lemma Command.answer_run_of_nil (hnil : p.kindErrors = []) :
    run.answer false path source = .ofRun (conclude (p.execute .unlimited)) :=
  congrArg Answer.ofRun (run_eq_conclude h hnil _ _)

lemma Command.answer_check_of_nil (hnil : p.kindErrors = []) (unchecked : Bool) :
    check.answer unchecked path source =
      ⟨0, "Type check OK: " ++ toString p.size ++ " statements\n", ""⟩ := by
  simp only [answer, h, Program.diagnostics_eq_nil_iff.mpr hnil]
  rfl

/-- A program with errors is not executed, and the answer is the same as that of the check. -/
lemma Command.answer_of_ne_nil (hne : p.kindErrors ≠ []) (unchecked : Bool) :
    check.answer unchecked path source = .rejection (p.diagnostics (fileName path) source) ∧
      run.answer false path source = .rejection (p.diagnostics (fileName path) source) := by
  have hdiagnostics : p.diagnostics (fileName path) source ≠ [] :=
    mt Program.diagnostics_eq_nil_iff.mp hne
  obtain ⟨d, ds, hds⟩ := List.exists_cons_of_ne_nil hdiagnostics
  have hrun : Reckon.run (fileName path) source .unlimited =
      (.ok (.rejected (p.diagnostics (fileName path) source)), .unlimited) := by
    simp only [Reckon.run, h, hds]
  constructor
  · simp only [answer, h, hds]
  · exact congrArg Answer.ofRun hrun

end Program

/-! ## Errors of the parser in answers -/

namespace Answer

/-- An answer that tells an error of the parser. -/
def ReportsParseError (a : Answer) : Prop := "parse error".toList <+: a.errors.toList

/-- What begins in another way tells none. -/
lemma not_reportsParseError {a : Answer} (h : a.errors.toList.head? ≠ some 'p') :
    ¬ a.ReportsParseError := by
  rintro ⟨rest, hrest⟩
  rw [← hrest] at h
  exact h rfl

lemma reportsParseError_message (code : ℕ) (output : String) (e : ParseError) :
    (Answer.mk code output (e.message ++ "\n")).ReportsParseError := by
  have hbeginning : "parse error at line ".toList =
      "parse error".toList ++ " at line ".toList := rfl
  unfold ReportsParseError ParseError.message
  simp only [String.toList_append, hbeginning, List.append_assoc]
  exact List.prefix_append _ _

/-- The end of an execution is no error of the parser. -/
lemma not_reportsParseError_ofRun (outcome : Except RunError Unit × Sink) :
    ¬ (ofRun (conclude outcome)).ReportsParseError := by
  obtain ⟨result, sink⟩ := outcome
  refine not_reportsParseError ?_
  cases result with
  | ok u => simp [conclude, ofRun, success]
  | error err =>
    have hbeginning : ∃ rest, err.message.toList = 'r' :: rest := by
      unfold RunError.message
      simp only [String.toList_append, List.append_assoc]
      exact ⟨_, rfl⟩
    obtain ⟨rest, hrest⟩ := hbeginning
    simp [conclude, ofRun, failure, Failure.message, hrest]

lemma errors_rejection (ds : List String) :
    (rejection ds).errors = String.join (ds.map (· ++ "\n")) := by
  rw [String.join_eq_foldl, List.foldl_map]
  simp only [rejection, String.append_assoc]

lemma not_reportsParseError_rejection (p : Program) (file source : String) :
    ¬ (rejection (p.diagnostics file source)).ReportsParseError := by
  refine not_reportsParseError ?_
  rw [errors_rejection, Program.diagnostics, List.map_map]
  cases p.kindErrors with
  | nil => simp
  | cons e es =>
    have hbeginning : ∃ rest, (e.diagnostic file (Text.lines source)).toList = 'F' :: rest := by
      unfold KindError.diagnostic
      simp only [String.toList_append, List.append_assoc]
      exact ⟨_, rfl⟩
    obtain ⟨rest, hrest⟩ := hbeginning
    simp [hrest]

end Answer

/-- Only a text that is not a program is answered with an error of the parser. -/
lemma Command.reportsParseError_iff {command : Command} (hcommand : command ≠ .tokens)
    (unchecked : Bool) (path source : String) :
    (command.answer unchecked path source).ReportsParseError ↔
      ∃ e, Program.ofSource source = .error e := by
  cases hp : Program.ofSource source with
  | error e =>
    rw [answer_of_error hp hcommand]
    exact iff_of_true (Answer.reportsParseError_message 1 "" e) ⟨e, rfl⟩
  | ok p =>
    refine iff_of_false ?_ (by simp)
    cases command with
    | run =>
      cases unchecked with
      | true =>
        rw [answer_run_unchecked hp]
        exact Answer.not_reportsParseError_ofRun _
      | false =>
        by_cases hnil : p.kindErrors = []
        · rw [answer_run_of_nil hp hnil]
          exact Answer.not_reportsParseError_ofRun _
        · rw [(answer_of_ne_nil hp hnil false).2]
          exact Answer.not_reportsParseError_rejection p _ source
    | check =>
      by_cases hnil : p.kindErrors = []
      · rw [answer_check_of_nil hp hnil]
        exact Answer.not_reportsParseError (by simp)
      · rw [(answer_of_ne_nil hp hnil unchecked).1]
        exact Answer.not_reportsParseError_rejection p _ source
    | parse =>
      rw [answer_parse hp]
      exact Answer.not_reportsParseError (by simp)
    | tokens => exact absurd rfl hcommand

/-! ## Runs with the check and without it -/

/-- The check changes no exit code, and of the output it can only leave out everything. -/
lemma Command.run_agrees (path : String) (content : FileContent) :
    (run.answerFile false path content).code = (run.answerFile true path content).code ∧
      (run.answerFile false path content).output.toList <+:
        (run.answerFile true path content).output.toList := by
  cases content with
  | missing | unreadable => exact ⟨rfl, List.prefix_refl _⟩
  | text source =>
    simp only [answerFile]
    cases hp : Program.ofSource source with
    | error e =>
      rw [answer_of_error hp (by decide), answer_of_error hp (by decide)]
      exact ⟨rfl, List.prefix_refl _⟩
    | ok p =>
      rw [answer_run_unchecked hp]
      by_cases hnil : p.kindErrors = []
      · rw [answer_run_of_nil hp hnil]
        exact ⟨rfl, List.prefix_refl _⟩
      · -- a program that is rejected writes nothing, and without the check it fails
        rw [(answer_of_ne_nil hp hnil false).2]
        refine ⟨?_, List.nil_prefix⟩
        have hfails := Program.execute_ne_ok hnil .unlimited
        rcases hrun : p.execute .unlimited with ⟨err | u, sink⟩
        · rfl
        · exact absurd (congrArg Prod.fst hrun) hfails

/-! ## Calls -/

/-- A name by which something other than a file is asked for. -/
def IsCommandName (name : String) : Prop :=
  (Command.ofName? name).isSome ∨ name = Command.helpName

/-- A name that can be that of a file on a command line. -/
def IsFileName (name : String) : Prop := name ≠ "" ∧ name.toList.head? ≠ some '-'

namespace Arguments

open Command (noCheck)

/-- **What is asked of a reader of command lines.**  It yields the command, the file and the flag as
they are typed. -/
structure AsTyped (read : List String → Arguments) : Prop where
  /-- A file without a command. -/
  file : ∀ name, IsFileName name → ¬ IsCommandName name → read [name] = line ⟨none, some name⟩
  /-- A command and its file. -/
  command : ∀ (c : Command) (name), IsFileName name →
    read [c.name, name] = line ⟨some ⟨c, false, name⟩, none⟩
  /-- The flag before the file. -/
  flagBefore : ∀ name, IsFileName name →
    read [Command.run.name, noCheck, name] = line ⟨some ⟨.run, true, name⟩, none⟩
  /-- The flag behind the file. -/
  flagBehind : ∀ name, IsFileName name →
    read [Command.run.name, name, noCheck] = line ⟨some ⟨.run, true, name⟩, none⟩
  /-- No file has an empty name. -/
  noFile : read [""] = invalid
  /-- A command has no file of an empty name. -/
  commandNoFile : ∀ c : Command, read [c.name, ""] = invalid

/-- An argument that is no option and names no command names a file. -/
lemma Progress.read_file {command : Option Command} {unchecked : Bool} {name : String}
    (hname : IsFileName name) (hhelp : isHelpName ⟨command, none, unchecked⟩ name = false)
    (hcommand : command? ⟨command, none, unchecked⟩ name = none) (rest : List String) :
    read ⟨command, none, unchecked⟩ (name :: rest) =
      read ⟨command, some name, unchecked⟩ rest := by
  have hend : name ≠ "--" := by
    rintro rfl
    exact hname.2 rfl
  have hoption : ¬ isOption name = true := by simp [isOption, hname.2]
  have hfile : file? ⟨command, none, unchecked⟩ name = some ⟨command, some name, unchecked⟩ :=
    if_neg (by simp [hname.1])
  rw [read, if_neg hend, if_neg hoption, if_neg (by simp [hhelp])]
  simp only [hcommand, hfile]

/-- Behind the name of a command there are no names of commands. -/
lemma read_command (c : Command) (arguments : List String) :
    read (c.name :: arguments) = Progress.read ⟨some c, none, false⟩ arguments := by
  cases c <;> rfl

/-- The reader that the program is run with yields what is typed. -/
lemma asTyped_read : AsTyped read where
  file name hname hcommand := by
    obtain ⟨hofName, hhelp⟩ := not_or.mp hcommand
    have hnone : Command.ofName? name = none := by simpa using hofName
    rw [read, Progress.read_file hname (by simp [Progress.isHelpName, hhelp])
      (by simp [Progress.command?, hnone])]
    rfl
  command c name hname := by
    rw [read_command, Progress.read_file hname rfl rfl]
    rfl
  flagBefore name hname := by
    have hflag : read [Command.run.name, noCheck, name] =
        Progress.read ⟨some .run, none, true⟩ [name] := rfl
    rw [hflag, Progress.read_file hname rfl rfl]
    rfl
  flagBehind name hname := by
    rw [read_command, Progress.read_file hname rfl rfl]
    rfl
  noFile := rfl
  commandNoFile c := by cases c <;> rfl

-- A file with the name of a command is only found behind a command.
example : read ["help"] = help ∧
    read ["run", "help"] = line ⟨some ⟨.run, false, "help"⟩, none⟩ := by
  decide

variable {read : List String → Arguments} {path : String}

/-- A command is answered as it is typed. -/
lemma AsTyped.answer_command (h : AsTyped read) (hpath : IsFileName path)
    (content : String → FileContent) (c : Command) :
    answerCall read content [c.name, path] = c.answerFile false path (content path) := by
  rw [answerCall, h.command c path hpath]
  rfl

/-- The flag leaves out the check, wherever it stands. -/
lemma AsTyped.answer_flag (h : AsTyped read) (hpath : IsFileName path)
    (content : String → FileContent) :
    answerCall read content [Command.run.name, noCheck, path] =
        Command.run.answerFile true path (content path) ∧
      answerCall read content [Command.run.name, path, noCheck] =
        Command.run.answerFile true path (content path) := by
  rw [answerCall, answerCall, h.flagBefore path hpath, h.flagBehind path hpath]
  exact ⟨rfl, rfl⟩

/-- Without a command, a file is checked and run. -/
lemma AsTyped.answer_file (h : AsTyped read) (hhyphen : path.toList.head? ≠ some '-')
    (hname : ¬ IsCommandName path) (content : String → FileContent) :
    answerCall read content [path] = answerCall read content [Command.run.name, path] := by
  by_cases hempty : path = ""
  · subst hempty
    rw [answerCall, answerCall, h.noFile, h.commandNoFile]
  · rw [h.answer_command ⟨hempty, hhyphen⟩, answerCall, h.file path ⟨hempty, hhyphen⟩ hname]
    rfl

end Arguments

/-! ## The commands -/

/-- What the commands answer about a source text that is a program. -/
structure Program.IsAnswered (path source : String) (p : Program) : Prop where
  /-- It can be listed, and its size is told. -/
  parse : ∀ unchecked, Command.parse.answer unchecked path source =
    ⟨0, "Parsed OK: " ++ toString p.size ++ " statements\n" ++ p.listing, ""⟩
  /-- The listing is that many lines. -/
  rows : ∃ rows, Text.HasRows p.listing rows ∧ rows.length = p.size
  /-- The check succeeds if there is no error in kinds. -/
  check : ∀ unchecked,
    (Command.check.answer unchecked path source).code = 0 ↔ p.kindErrors = []
  /-- Then it tells the same size, and it makes no difference to a run. -/
  accepted : p.kindErrors = [] →
    (∀ unchecked, Command.check.answer unchecked path source =
      ⟨0, "Type check OK: " ++ toString p.size ++ " statements\n", ""⟩) ∧
    Command.run.answer false path source = Command.run.answer true path source
  /-- Otherwise checking and running both answer with the diagnostics only. -/
  rejected : p.kindErrors ≠ [] → ∃ diagnostics,
    (∀ unchecked, Command.check.answer unchecked path source = ⟨1, "", diagnostics⟩) ∧
    Command.run.answer false path source = ⟨1, "", diagnostics⟩

lemma Program.isAnswered (h : Program.ofSource source = .ok p) : p.IsAnswered path source where
  parse := Command.answer_parse h
  rows := ⟨p.statements.map Stmt.listing, p.hasRows_listing, List.length_map _⟩
  check unchecked := by
    by_cases hnil : p.kindErrors = []
    · rw [Command.answer_check_of_nil h hnil]
      exact iff_of_true rfl hnil
    · rw [(Command.answer_of_ne_nil h hnil unchecked).1]
      exact iff_of_false Nat.one_ne_zero hnil
  accepted hnil := by
    rw [Command.answer_run_of_nil h hnil, Command.answer_run_unchecked h]
    exact ⟨Command.answer_check_of_nil h hnil, rfl⟩
  rejected hne :=
    ⟨_, fun unchecked => (Command.answer_of_ne_nil h hne unchecked).1,
      (Command.answer_of_ne_nil h hne false).2⟩

/-- **The commands agree on a file.**

* If its text is not a program, every command but the listing of tokens fails with the error of the
  parser on a line of its own, and only then an error of the parser is told.
* If it is a program, it can be listed, and checking and running depend on its errors in kinds.
* Whatever the file is, running it ends with the same exit code with the check and without, and
  with the check it writes the same output or a part of it.
* With a reader of command lines that yields what is typed, these are the answers to calls that name
  the command.  The command that checks and runs need not be named. -/
theorem commands_agree (path : String) :
    (∀ source e, Program.ofSource source = .error e → '\n' ∉ e.message.toList ∧
      ∀ command unchecked, command ≠ .tokens →
        Command.answer command unchecked path source = ⟨1, "", e.message ++ "\n"⟩) ∧
    (∀ source command unchecked, command ≠ .tokens →
      ((Command.answer command unchecked path source).ReportsParseError ↔
        ∃ e, Program.ofSource source = .error e)) ∧
    (∀ source p, Program.ofSource source = .ok p → p.IsAnswered path source) ∧
    (∀ content,
      (Command.run.answerFile false path content).code =
        (Command.run.answerFile true path content).code ∧
      (Command.run.answerFile false path content).output.toList <+:
        (Command.run.answerFile true path content).output.toList) ∧
    ∀ read content, Arguments.AsTyped read → path.toList.head? ≠ some '-' →
      (path ≠ "" →
        (∀ command : Command, answerCall read content [command.name, path] =
          command.answerFile false path (content path)) ∧
        answerCall read content [Command.run.name, Command.noCheck, path] =
          Command.run.answerFile true path (content path) ∧
        answerCall read content [Command.run.name, path, Command.noCheck] =
          Command.run.answerFile true path (content path)) ∧
      (¬ IsCommandName path →
        answerCall read content [path] = answerCall read content [Command.run.name, path]) := by
  refine ⟨fun source e h => ?_, fun source command unchecked hcommand => ?_,
    fun source p h => Program.isAnswered h, Command.run_agrees path,
    fun read content hread hhyphen => ⟨fun hempty => ?_, fun hname => ?_⟩⟩
  · exact ⟨ParseError.newline_not_mem_message h,
      fun command unchecked hcommand => Command.answer_of_error h hcommand unchecked⟩
  · exact Command.reportsParseError_iff hcommand unchecked path source
  · have hpath : IsFileName path := ⟨hempty, hhyphen⟩
    exact ⟨hread.answer_command hpath content, hread.answer_flag hpath content⟩
  · exact hread.answer_file hhyphen hname content

/-- Calls on two files: one that is not a program, which is answered with the error of the parser
though no command is named, and one that is a program with an error in kinds. -/
theorem commands_agree_on_files :
    let e : ParseError := ⟨.unexpectedToken .print .integer, ⟨1, 1⟩⟩
    let content : String → FileContent := fun _ => .text "1"
    Program.ofSource "1" = .error e ∧ Arguments.AsTyped Arguments.read ∧ IsFileName "one.wb" ∧
      ¬ IsCommandName "one.wb" ∧
      answerCall Arguments.read content ["one.wb"] = ⟨1, "", e.message ++ "\n"⟩ ∧
      (answerCall Arguments.read content ["check", "one.wb"]).ReportsParseError ∧
      ∃ p, Program.ofSource "print 2 + 3.5;" = .ok p ∧ p.kindErrors ≠ [] ∧
        p.IsAnswered "one.wb" "print 2 + 3.5;" := by
  intro e content
  have he : Program.ofSource "1" = .error e := by decide +kernel
  have hfile : IsFileName "one.wb" := by
    unfold IsFileName
    decide
  have hname : ¬ IsCommandName "one.wb" := by
    unfold IsCommandName
    decide
  obtain ⟨p, hp, herrors⟩ := Program.exists_ofSource_mixed tokenize_mixed
  obtain ⟨hparse, hreports, hprogram, -, hcalls⟩ := commands_agree "one.wb"
  obtain ⟨hcommands, hrun⟩ := hcalls Arguments.read content Arguments.asTyped_read hfile.2
  obtain ⟨hnamed, -⟩ := hcommands hfile.1
  refine ⟨he, Arguments.asTyped_read, hfile, hname, ?_, ?_, p, hp, ?_, hprogram _ p hp⟩
  · rw [hrun hname, hnamed .run]
    exact (hparse "1" e he).2 .run false (by decide)
  · have hcheck : answerCall Arguments.read content ["check", "one.wb"] =
        Command.check.answer false "one.wb" "1" := hnamed .check
    rw [hcheck]
    exact (hreports "1" .check false (by decide)).mpr ⟨e, he⟩
  · rw [herrors]
    exact List.cons_ne_nil _ _

end Reckon
