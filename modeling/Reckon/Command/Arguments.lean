/-
# A reader of command lines

Options begin with a hyphen; `--` ends them, and after it there are no command names either.
Requests for help and for the version are answered as soon as they are met.  Only a request for
help by name looks at what follows it: that can be the name of a command to be explained.

This is the reader that the program is run with.  What the program does with the arguments that
have been read does not depend on it.
-/
import Reckon.Command.Invocation

namespace Reckon

namespace Arguments

/-- What has been read of a command line. -/
structure Progress where
  /-- The command, if one is named. -/
  command : Option Command
  /-- The file, if one is named. -/
  path : Option String
  /-- Whether the check is to be left out. -/
  unchecked : Bool
deriving DecidableEq, Repr

/-- The name of a file is read; there can be one, and it is not empty. -/
def Progress.file? (p : Progress) (name : String) : Option Progress :=
  if name = "" ∨ p.path.isSome then none else some { p with path := some name }

/-- The end of the command line is met.  A command needs a file. -/
def Progress.finish (p : Progress) : Arguments :=
  match p.command, p.path with
  | some command, some path => line ⟨some ⟨command, p.unchecked, path⟩, none⟩
  | some _, none => invalid
  | none, path => line ⟨none, path⟩

/-- The command that an argument names where commands can be named, before any file. -/
def Progress.command? (p : Progress) (name : String) : Option Command :=
  if p.command.isNone && p.path.isNone then Command.ofName? name else none

/-- Whether an argument is an option. -/
def isOption (argument : String) : Bool :=
  argument.toList.head? = some '-' && argument ≠ "-"

/-- Whether an option asks for help.  Letters after the first do not matter then. -/
def isHelp (option : String) : Bool :=
  option = "--help" || option.toList.take 2 = ['-', 'h']

/-- Whether an option asks for the version. -/
def isVersion (option : String) : Bool :=
  option = "--version" || option.toList.take 2 = ['-', 'V']

/-- Whether an argument asks for help by name, which it can where commands can be named. -/
def Progress.isHelpName (p : Progress) (name : String) : Bool :=
  p.command.isNone && p.path.isNone && name = Command.helpName

/-- What is asked for when the given arguments follow a request for help by name.  They are what is
to be explained: nothing in particular, or one command, since commands have no commands of their
own. -/
def ofHelpTopics : List String → Arguments
  | [] => help
  | [name] => if name = Command.helpName || (Command.ofName? name).isSome then help else invalid
  | _ => invalid

/-- Reads the arguments that are left. -/
def Progress.read (p : Progress) : List String → Arguments
  | [] => p.finish
  | a :: rest =>
    if a = "--" then
      match rest.foldlM Progress.file? p with
      | some p' => p'.finish
      | none => invalid
    else if isOption a then
      if isHelp a then help
      else if isVersion a && p.command.isNone then version
      else if a = Command.noCheck && p.command = some .run && !p.unchecked then
        { p with unchecked := true }.read rest
      else invalid
    else if p.isHelpName a then ofHelpTopics rest
    else
      match p.command? a with
      | some c => { p with command := some c }.read rest
      | none =>
        match p.file? a with
        | some p' => p'.read rest
        | none => invalid

/-- Reads the arguments of a call. -/
def read (arguments : List String) : Arguments := Progress.read ⟨none, none, false⟩ arguments

end Arguments

/-- What a list of arguments asks for. -/
def Invocation.ofArguments (arguments : List String) : Invocation :=
  (Arguments.read arguments).invocation

end Reckon
