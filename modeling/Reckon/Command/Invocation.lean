/-
# Calls of the program

The program is called with the name of a file, or with the name of a command and that of a file.
Which of these stand on a command line is found out by a reader of command lines.  It gives the
command as it is typed, or the file that stands there without one, and it answers requests for help
and for the version and lines that it does not understand by itself.

What is asked for by a line that it does understand is said here.  A command that is named is to be
carried out, and a file without a command is to be checked and run.
-/

namespace Reckon

/-- What can be done with a file. -/
inductive Command where
  /-- Check it and run it. -/
  | run
  /-- Only check it. -/
  | check
  /-- List the program. -/
  | parse
  /-- List its tokens. -/
  | tokens
deriving DecidableEq, Repr

namespace Command

/-- The name of a command. -/
def name : Command → String
  | run => "run"
  | check => "check"
  | parse => "parse"
  | tokens => "tokens"

/-- The command of a name. -/
def ofName? : String → Option Command
  | "run" => some run
  | "check" => some check
  | "parse" => some parse
  | "tokens" => some tokens
  | _ => none

@[simp] theorem ofName?_name (command : Command) : ofName? command.name = some command := by
  cases command <;> rfl

/-- The flag of `run` that leaves out the check. -/
def noCheck : String := "--no-check"

/-- The name under which help is asked for as if it were a command. -/
def helpName : String := "help"

end Command

/-- A command as it is typed, with the name of a file. -/
structure Request where
  command : Command
  /-- Whether the check is to be left out. -/
  unchecked : Bool
  path : String
deriving DecidableEq, Repr

/-- What stands on a command line. -/
structure CommandLine where
  /-- The command that is named, if there is one. -/
  request : Option Request
  /-- The file that is named without a command, if there is one. -/
  path : Option String
deriving DecidableEq, Repr

/-- What a reader of command lines makes of the arguments of a call. -/
inductive Arguments where
  | line (line : CommandLine)
  /-- The command line is to be explained. -/
  | help
  /-- The version is asked for. -/
  | version
  /-- They are not those of a command line. -/
  | invalid
deriving DecidableEq, Repr

/-- What a call asks for. -/
inductive Invocation where
  /-- Do something with a file. -/
  | perform (request : Request)
  /-- Explain the command line. -/
  | help
  /-- Name the program and its version. -/
  | version
  /-- Nothing, for want of a file. -/
  | noFile
  /-- Nothing, since it is not understood. -/
  | invalid
deriving DecidableEq, Repr

/-- What a command line asks for.  Without a command the file is checked and run. -/
def CommandLine.invocation (line : CommandLine) : Invocation :=
  match line.request, line.path with
  | some request, _ => .perform request
  | none, some path => .perform ⟨.run, false, path⟩
  | none, none => .noFile

/-- What arguments ask for. -/
def Arguments.invocation : Arguments → Invocation
  | line l => l.invocation
  | help => .help
  | version => .version
  | invalid => .invalid

end Reckon
