/-
# BooleanLexer.Text.Blank -- the characters that separate tokens

Six ASCII characters are blank.  A token never contains one, and the reader skips
them between tokens.  No other character is blank, whatever Unicode says of it: a
no-break space or a line separator is an unexpected character.
-/
import BooleanLexer.Text.Basic

namespace BooleanLexer.Text

set_option autoImplicit false

/-- Space, tab, line feed, vertical tab, form feed and carriage return. -/
def blanks : List Char := [' ', '\t', '\n', '\x0b', '\x0c', '\r']

/-- Whether a character is skipped between tokens. -/
def isBlank (c : Char) : Bool := blanks.contains c

/-- The blank characters that a text starts with. -/
def leadingBlanks (text : Text) : Text := text.takeWhile isBlank

/-- A text without the blank characters that it starts with. -/
def skipBlanks (text : Text) : Text := text.dropWhile isBlank

theorem leadingBlanks_append_skipBlanks (text : Text) :
    leadingBlanks text ++ skipBlanks text = text :=
  List.takeWhile_append_dropWhile

theorem length_skipBlanks_le (text : Text) : (skipBlanks text).length ≤ text.length :=
  (List.dropWhile_sublist isBlank).length_le

end BooleanLexer.Text
