/-
# BooleanLexer.CommandLine.Arguments -- the arguments of the scan command

Arguments are read from left to right.  An option without an attached value waits for
its value, and a value that stood apart is checked when the next option or the
expression comes, or at the end.  So of two faults the one that is noticed first is
reported, which need not be the one that stands first: an option that does not exist
and a second expression are noticed at once.

The parameters are kept in the order in which they are given.  That an expression and
an input file exclude each other is checked when all arguments are read.
-/
import BooleanLexer.CommandLine.Usage
import BooleanLexer.CommandLine.Word
import BooleanLexer.Scan.Run

namespace BooleanLexer.CommandLine

set_option autoImplicit false

/-- Why the reading of arguments ends without a request. -/
inductive Halt where
  | refused (error : UsageError)
  /-- The arguments ask for help, for all of it or for a summary. -/
  | help (full : Bool)
deriving DecidableEq

/-- What the arguments so far have given. -/
structure Draft where
  /-- The parameters with their values, in the order in which they are given. -/
  given : List (Parameter × Text)
  /-- The option whose value is not checked yet, and the value, if it has one already. -/
  pending? : Option (Parameter × Option Text)
deriving DecidableEq

namespace Draft

/-- Nothing is given. -/
def empty : Draft := ⟨[], none⟩

/-- The value of a parameter. -/
def value? (draft : Draft) (parameter : Parameter) : Option Text := draft.given.lookup parameter

/-- Gives a value to an option. -/
def assign (draft : Draft) (option : Parameter) (value : Text) : Except UsageError Draft :=
  if (draft.value? option).isSome then .error (.repeated option)
  else if value = [] then .error (.valueRequired option)
  else if option = .format ∧ Report.Format.ofName? value = none then
    .error (.invalidValue value option)
  else .ok { draft with given := draft.given ++ [(option, value)] }

/-- Checks the option that is pending. -/
def settle (draft : Draft) : Except UsageError Draft :=
  match draft.pending? with
  | none => .ok draft
  | some (option, none) => .error (.valueRequired option)
  | some (option, some value) => assign { draft with pending? := none } option value

/-- Takes an argument as the expression. -/
def takeExpression (draft : Draft) (argument : Text) : Except UsageError Draft := do
  if (draft.value? .expression).isSome then throw (.unexpectedArgument argument)
  let draft ← draft.settle
  return { draft with given := draft.given ++ [(.expression, argument)] }

/-- Takes an option, with a value if one is attached. -/
def takeOption (draft : Draft) (option : Parameter) (attached? : Option Text) :
    Except UsageError Draft := do
  let draft ← draft.settle
  match attached? with
  | some value => draft.assign option value
  | none => return { draft with pending? := some (option, none) }

/-- Takes a word that is no option: as the value of the option that waits for one, or
else as the expression. -/
def takeWord (draft : Draft) (argument : Text) : Except UsageError Draft :=
  match draft.pending? with
  | some (option, none) => .ok { draft with pending? := some (option, some argument) }
  | _ => draft.takeExpression argument

/-- Ends the reading with help, unless the pending option is refused. -/
def askHelp (draft : Draft) (full : Bool) : Halt :=
  match draft.settle with
  | .ok _ => .help full
  | .error error => .refused error

/-- Takes an option by its long name. -/
def takeLong (draft : Draft) (name : Text) (value? : Option Text) : Except Halt Draft :=
  if name = "help".toList then
    match value? with
    | some value => .error (.refused (.unexpectedValue value "--help".toList))
    | none => .error (draft.askHelp true)
  else
    match Parameter.ofLongName? name with
    | some option => (draft.takeOption option value?).mapError .refused
    | none => .error (.refused (.unexpectedArgument ("--".toList ++ name)))

/-- Takes an option by its letter. -/
def takeShort (draft : Draft) (letter : Char) (attached : Text) : Except Halt Draft :=
  if letter = 'h' then .error (draft.askHelp false)
  else
    match Parameter.ofLetter? letter with
    | some option => (draft.takeOption option (attachedValue? attached)).mapError .refused
    | none => .error (.refused (.unexpectedArgument ['-', letter]))

/-- Takes arguments of which none is an option. -/
def takeWords (draft : Draft) (arguments : List Text) : Except Halt Draft :=
  (arguments.foldlM takeExpression draft).mapError .refused

/-- Takes arguments. -/
def take (draft : Draft) : List Text → Except Halt Draft
  | [] => .ok draft
  | argument :: arguments =>
      match Word.ofText argument with
      | .endOfOptions => draft.takeWords arguments
      | .long name value? => do (← draft.takeLong name value?).take arguments
      | .short letter attached => do (← draft.takeShort letter attached).take arguments
      | .plain => do (← (draft.takeWord argument).mapError .refused).take arguments

/-- Refuses an expression beside an input file. -/
def checkConflict (draft : Draft) : Except UsageError Unit :=
  match draft.given.map Prod.fst |>.filter fun parameter =>
      parameter = .expression || parameter = .input with
  | first :: second :: _ => .error (.conflict first second)
  | _ => .ok ()

/-- The request that a draft makes. -/
def request (draft : Draft) : Scan.Request where
  origin :=
    match draft.value? .expression, draft.value? .input with
    | some text, _ => .expression text
    | none, some path => .file path
    | none, none => .standardInput
  output? := draft.value? .output
  format := ((draft.value? .format).bind Report.Format.ofName?).getD default

/-- Ends the reading of arguments. -/
def finish (draft : Draft) : Except UsageError Scan.Request := do
  let draft ← draft.settle
  draft.checkConflict
  return draft.request

end Draft

/-- The request that arguments make. -/
def readRequest (arguments : List Text) : Except Halt Scan.Request := do
  (← Draft.empty.take arguments).finish.mapError .refused

end BooleanLexer.CommandLine
