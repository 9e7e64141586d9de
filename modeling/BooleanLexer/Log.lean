/-
# BooleanLexer.Log -- records of what a run does

A log is the list of its records in the order in which they were made.
-/
import BooleanLexer.Text.Basic

namespace BooleanLexer.Log

set_option autoImplicit false

/-- How much a record matters, from the least to the most. -/
inductive Level where
  | trace
  | debug
  | warn
deriving DecidableEq

/-- The name of a level. -/
def Level.name : Level → Text
  | .trace => "trace".toList
  | .debug => "debug".toList
  | .warn => "warn".toList

/-- One line of a log. -/
structure Record where
  level : Level
  text : Text
deriving DecidableEq

end BooleanLexer.Log
