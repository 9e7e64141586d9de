/-
# BooleanLexer.CommandLine.Word -- what an argument looks like

Before anything is known about options, the form of an argument tells what it may be:
the mark after which no argument is an option, an option by its long name with or
without a value behind an equals sign, an option by its letter with whatever follows
it, or a plain word.  A single dash and the empty argument are plain words.
-/
import BooleanLexer.Text.Basic

namespace BooleanLexer.CommandLine

set_option autoImplicit false

/-- The form of an argument. -/
inductive Word where
  /-- Two dashes alone. -/
  | endOfOptions
  /-- Two dashes and a name. -/
  | long (name : Text) (value? : Option Text)
  /-- A dash, a letter, and what follows the letter. -/
  | short (letter : Char) (attached : Text)
  | plain
deriving DecidableEq

/-- A name and the value behind the first equals sign. -/
def splitValue (text : Text) : Text × Option Text :=
  (text.takeWhile (· ≠ '='), (text.dropWhile (· ≠ '=')).tail?)

/-- The form of an argument. -/
def Word.ofText : Text → Word
  | ['-', '-'] => .endOfOptions
  | '-' :: '-' :: text => .long (splitValue text).1 (splitValue text).2
  | '-' :: letter :: attached => .short letter attached
  | _ => .plain

/-- The value that is attached to the letter of an option; an equals sign before it is
not part of it. -/
def attachedValue? : Text → Option Text
  | [] => none
  | '=' :: value => some value
  | value => some value

end BooleanLexer.CommandLine
