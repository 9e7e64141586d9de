/-
# BooleanLexer.CommandLine.Program -- the program as a whole

The first argument says what the program does: it scans, or it explains itself.  The
program ends with status 0 if all went well, with 1 if a scan failed, and with 2 if
the arguments are refused.
-/
import BooleanLexer.CommandLine.Arguments
import BooleanLexer.CommandLine.Help

namespace BooleanLexer.CommandLine

set_option autoImplicit false

/-- What the program is told to do. -/
inductive Task where
  | scan (request : Scan.Request)
  | explain (topic : Topic)
  | showVersion
  | requireSubcommand
  | refuse (error : UsageError)
deriving DecidableEq

namespace Task

/-- The task of the arguments behind the name of the scan command. -/
def ofScanArguments (arguments : List Text) : Task :=
  match readRequest arguments with
  | .ok request => .scan request
  | .error (.help full) => .explain (.scan full)
  | .error (.refused error) => .refuse error

/-- The name of the scan command. -/
def scanName : Text := "scan".toList

/-- The name of the help command. -/
def helpName : Text := "help".toList

/-- The task of the arguments behind the name of the help command. -/
def ofHelpArguments : List Text → Task
  | [] => .explain .program
  | name :: names =>
      if name = scanName ∨ name = helpName then
        match names with
        | [] => .explain (if name = scanName then .scan true else .help)
        | other :: _ => .refuse (.unrecognizedSubcommand other)
      else .refuse (.unrecognizedSubcommand name)

/-- The task of an option before any command. -/
def ofLong (name : Text) (value? : Option Text) : Task :=
  if name = "help".toList ∨ name = "version".toList then
    match value? with
    | some value => .refuse (.unexpectedValue value ("--".toList ++ name))
    | none => if name = "help".toList then .explain .program else .showVersion
  else .refuse (.unexpectedArgument ("--".toList ++ name))

/-- The task of an option before any command, given by its letter. -/
def ofShort (letter : Char) : Task :=
  if letter = 'h' then .explain .program
  else if letter = 'V' then .showVersion
  else .refuse (.unexpectedArgument ['-', letter])

/-- The task of a word behind the mark that ends the options: there, no word names a
command. -/
def ofWordBehindOptions (word : Text) : Task :=
  if word = scanName ∨ word = helpName then .refuse (.unexpectedArgument word)
  else .refuse (.unrecognizedSubcommand word)

/-- The task of all arguments. -/
def ofArguments : List Text → Task
  | [] => .requireSubcommand
  | argument :: arguments =>
      match Word.ofText argument with
      | .endOfOptions => arguments.head?.elim .requireSubcommand ofWordBehindOptions
      | .long name value? => ofLong name value?
      | .short letter _ => ofShort letter
      | .plain =>
          if argument = scanName then ofScanArguments arguments
          else if argument = helpName then ofHelpArguments arguments
          else .refuse (.unrecognizedSubcommand argument)

end Task

/-- How the program ends. -/
structure Ending where
  status : Nat
  output : List UInt8
  errors : Text
deriving DecidableEq

namespace Ending

/-- The end of a run that failed for a reason, after it printed something. -/
def failed (reason : Text) (printed : List UInt8) : Ending :=
  ⟨1, printed, "Error: ".toList ++ reason ++ ['\n']⟩

/-- The end of a run that printed something. -/
def ofScan (failure? : Option Scan.Failure) (printed : List UInt8) : Ending :=
  match failure? with
  | none => ⟨0, printed, []⟩
  | some failure => failed failure.message printed

/-- The end of a task that is no scan. -/
def ofText (text : Text) : Ending := ⟨0, Utf8.encode text, []⟩

/-- The end of a program whose arguments are refused. -/
def refused (error : UsageError) : Ending := ⟨2, [], "error: ".toList ++ error.message ++ ['\n']⟩

/-- The end of a program whose arguments name no command: it explains itself. -/
def subcommandRequired : Ending := ⟨2, [], Topic.program.text⟩

end Ending

/-- Runs the program; the files are those afterwards. -/
def runProgram (arguments : List Text) (world : Scan.World) : Ending × Files :=
  match Task.ofArguments arguments with
  | .scan request =>
      let outcome := Scan.run request world
      (.ofScan outcome.failure? outcome.printed, outcome.files)
  | .explain topic => (.ofText topic.text, world.files)
  | .showVersion => (.ofText versionText, world.files)
  | .requireSubcommand => (.subcommandRequired, world.files)
  | .refuse error => (.refused error, world.files)

end BooleanLexer.CommandLine
