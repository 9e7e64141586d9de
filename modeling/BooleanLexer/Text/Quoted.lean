/-
# BooleanLexer.Text.Quoted -- text shown between delimiters

Reports and messages show source text between two delimiters: a quotation mark
for a text, an apostrophe for a single character.  The delimiter and the backslash
are written behind a backslash; a null, a tab, a line feed and a carriage return by
a letter of their own; every other character that would not show by itself by its
number, as `\u` and the hexadecimal digits in braces.  All else stands for itself,
also the delimiter that is not in use.  A quoted text never spans two lines.
-/
import BooleanLexer.Text.Unprintable

namespace BooleanLexer.Text

set_option autoImplicit false

/-- One character as it stands between two `delimiter`s. -/
def escape (delimiter c : Char) : Text :=
  if c = '\x00' then ['\\', '0']
  else if c = '\t' then ['\\', 't']
  else if c = '\n' then ['\\', 'n']
  else if c = '\r' then ['\\', 'r']
  else if c = '\\' ∨ c = delimiter then ['\\', c]
  else if isUnprintable c then ['\\', 'u', '\x7b'] ++ hexadecimal c.toNat ++ ['\x7d']
  else [c]

/-- A text between quotation marks. -/
def quoted (text : Text) : Text := ['"'] ++ text.flatMap (escape '"') ++ ['"']

/-- A character between apostrophes. -/
def quotedChar (c : Char) : Text := ['\''] ++ escape '\'' c ++ ['\'']

end BooleanLexer.Text
