/-
# What the commands answer

Every call of the program ends with an exit code and texts on the two output streams: results on
the one, and what went wrong on the other.  The answer depends on the file only through its
content, or through the reason why it has none.
-/
import Reckon.Command.Arguments
import Reckon.Expr.Listing
import Reckon.Run
import Reckon.Token.Listing

namespace Reckon

/-- What is found under the name of a file. -/
inductive FileContent where
  /-- There is no such file. -/
  | missing
  /-- It is not a file, or not one that holds a text. -/
  | unreadable
  | text (source : String)
deriving DecidableEq, Repr

/-- What the bytes of a file hold: a text if they are one in UTF-8. -/
def FileContent.ofBytes (bytes : ByteArray) : FileContent :=
  match String.fromUTF8? bytes with
  | some source => text source
  | none => unreadable

/-- How a call of the program ends. -/
structure Answer where
  /-- The exit code: zero for success. -/
  code : Nat
  /-- What is written to standard output. -/
  output : String
  /-- What is written to standard error. -/
  errors : String
deriving DecidableEq, Repr

namespace Answer

/-- Success, with some output. -/
def success (output : String) : Answer := ⟨0, output, ""⟩

/-- Failure for a reason, which is followed by a line feed, after some output. -/
def failure (output reason : String) : Answer := ⟨1, output, reason ++ "\n"⟩

/-- Failure with diagnostics, each followed by a line feed. -/
def rejection (diagnostics : List String) : Answer :=
  ⟨1, "", diagnostics.foldl (fun before d => before ++ d ++ "\n") ""⟩

/-- The answer that the end of a run gives. -/
def ofRun : Except Failure Outcome × Sink → Answer
  | (.ok .executed, sink) => success sink.written
  | (.ok (.rejected diagnostics), _) => rejection diagnostics
  | (.error e, sink) => failure sink.written e.message

end Answer

/-- The last component of a path, by which diagnostics call a file; the whole path when that does
not name an entry of a directory. -/
def fileName (path : String) : String :=
  match ((path.splitOn "/").filter fun part => part ≠ "" && part ≠ ".").getLast? with
  | some part => if part = ".." then path else part
  | none => path

namespace Command

/-- What a command answers about a source text in the file `path`. -/
def answer (command : Command) (unchecked : Bool) (path source : String) : Answer :=
  match command with
  | run =>
    Answer.ofRun <|
      if unchecked then runUnchecked source .unlimited
      else Reckon.run (fileName path) source .unlimited
  | check =>
    match Program.ofSource source with
    | .error e => .failure "" e.message
    | .ok p =>
      match p.diagnostics (fileName path) source with
      | [] => .success ("Type check OK: " ++ toString p.size ++ " statements\n")
      | ds => .rejection ds
  | parse =>
    match Program.ofSource source with
    | .error e => .failure "" e.message
    | .ok p => .success ("Parsed OK: " ++ toString p.size ++ " statements\n" ++ p.listing)
  | tokens => .success (Token.listing (tokenize source))

/-- What a command answers about a file. -/
def answerFile (command : Command) (unchecked : Bool) (path : String) : FileContent → Answer
  | .missing => .failure "" (path ++ " does not exist.")
  | .unreadable => .failure "" "File cannot be read."
  | .text source => command.answer unchecked path source

end Command

namespace Invocation

/-- The forms of the command line. -/
def usage : String :=
  "Usage: wabbit [FILE]\n" ++
  "       wabbit <COMMAND>\n"

/-- The explanation of the command line. -/
def helpText : String :=
  "Wabbit interpreter: type check and run .wb programs\n" ++
  "\n" ++
  usage ++
  "\n" ++
  "Commands:\n" ++
  "  run     Type check a source file and run it if it is well typed\n" ++
  "  check   Parse and type-check a source file\n" ++
  "  parse   Parse a source file and print the syntax tree\n" ++
  "  tokens  Print the token stream of a source file\n" ++
  "  help    Print this message or the help of the given subcommand(s)\n" ++
  "\n" ++
  "Arguments:\n" ++
  "  [FILE]  Source file to check and run (same as `wabbit run FILE`)\n" ++
  "\n" ++
  "Options:\n" ++
  "  -h, --help     Print help\n" ++
  "  -V, --version  Print version\n"

/-- The name of the program and its version. -/
def versionText : String := "wabbit 0.1.0\n"

/-- What the program answers when `content` says what is found under a path. -/
def answer (invocation : Invocation) (content : String → FileContent) : Answer :=
  match invocation with
  | perform r => r.command.answerFile r.unchecked r.path (content r.path)
  | help => .success helpText
  | version => .success versionText
  | noFile => .failure helpText "Filename is required."
  | invalid => ⟨2, "", usage⟩

end Invocation

/-- What the program answers to a call with some arguments, by what `read` makes of them, when
`content` says what is found under a path. -/
def answerCall (read : List String → Arguments) (content : String → FileContent)
    (arguments : List String) : Answer :=
  (read arguments).invocation.answer content

end Reckon
