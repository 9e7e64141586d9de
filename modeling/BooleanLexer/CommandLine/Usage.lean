/-
# BooleanLexer.CommandLine.Usage -- parameters, and arguments that do not fit them

The scan command has four parameters: the expression, which is given by its place,
and three options, which have a long name and a letter.
-/
import BooleanLexer.Text.Visible

namespace BooleanLexer.CommandLine

set_option autoImplicit false

/-- A parameter of the scan command. -/
inductive Parameter where
  | expression
  | input
  | output
  | format
deriving DecidableEq

namespace Parameter

/-- The parameters that are given by name. -/
def options : List Parameter := [input, output, format]

/-- The long name of an option. -/
def longName : Parameter → Text
  | expression => "expression".toList
  | input => "input".toList
  | output => "output".toList
  | format => "format".toList

/-- The letter of an option, with which its long name starts. -/
def letter? (parameter : Parameter) : Option Char := parameter.longName.head?

/-- The option of a given long name. -/
def ofLongName? (name : Text) : Option Parameter :=
  options.find? fun option => option.longName = name

/-- The option of a given letter. -/
def ofLetter? (letter : Char) : Option Parameter :=
  options.find? fun option => option.letter? = some letter

/-- A parameter as messages name it. -/
def display : Parameter → Text
  | expression => "[EXPRESSION]".toList
  | input => "--input <INPUT>".toList
  | output => "--output <OUTPUT>".toList
  | format => "--format <FORMAT>".toList

end Parameter

/-- Why arguments are refused. -/
inductive UsageError where
  /-- An argument for which there is no place, or an option that does not exist. -/
  | unexpectedArgument (argument : Text)
  | unexpectedValue (value option : Text)
  | valueRequired (parameter : Parameter)
  | repeated (parameter : Parameter)
  | invalidValue (value : Text) (parameter : Parameter)
  /-- Two parameters that exclude each other, in the order in which they are given. -/
  | conflict (first second : Parameter)
  | unrecognizedSubcommand (name : Text)
deriving DecidableEq

/-- What is said about arguments that are refused.  Of an argument, only the visible
part is shown. -/
def UsageError.message : UsageError → Text
  | unexpectedArgument argument =>
      "unexpected argument '".toList ++ Text.visible argument ++ "' found".toList
  | unexpectedValue value option =>
      "unexpected value '".toList ++ Text.visible value ++ "' for '".toList ++ option ++
        "' found; no more were expected".toList
  | valueRequired parameter =>
      "a value is required for '".toList ++ parameter.display ++ "' but none was supplied".toList
  | repeated parameter =>
      "the argument '".toList ++ parameter.display ++ "' cannot be used multiple times".toList
  | invalidValue value parameter =>
      "invalid value '".toList ++ Text.visible value ++ "' for '".toList ++ parameter.display ++
        ['\'']
  | conflict first second =>
      "the argument '".toList ++ first.display ++ "' cannot be used with '".toList ++
        second.display ++ ['\'']
  | unrecognizedSubcommand name =>
      "unrecognized subcommand '".toList ++ Text.visible name ++ ['\'']

end BooleanLexer.CommandLine
