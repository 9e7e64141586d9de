/-
# BooleanLexer.Json.Basic -- records of named values as JSON text

Structured output consists of flat records: fields in a fixed order, each with a name
and a scalar value.  A record has a compact form on one line, without any blank
outside its strings, and a spread form with one field on a line.

In a string the quotation mark, the backslash and the control characters below the
space are escaped, some controls by a letter and the others by four hexadecimal
digits; nothing else is.
-/
import BooleanLexer.Text.Basic

namespace BooleanLexer.Json

set_option autoImplicit false

/-- A value without parts. -/
inductive Scalar where
  | null
  | bool (value : Bool)
  | number (value : Nat)
  | string (value : Text)
deriving DecidableEq

/-- A record: names with their values, in order. -/
abbrev Record := List (Text × Scalar)

/-- One character as it stands in a string. -/
def escape (c : Char) : Text :=
  match c with
  | '"' => ['\\', '"']
  | '\\' => ['\\', '\\']
  | '\x08' => ['\\', 'b']
  | '\t' => ['\\', 't']
  | '\n' => ['\\', 'n']
  | '\x0c' => ['\\', 'f']
  | '\r' => ['\\', 'r']
  | c =>
      if c < ' ' then ['\\', 'u'] ++ List.leftpad 4 '0' (Text.hexadecimal c.toNat) else [c]

/-- A text as a string. -/
def string (text : Text) : Text := ['"'] ++ text.flatMap escape ++ ['"']

/-- A value as it is written. -/
def Scalar.render : Scalar → Text
  | .null => "null".toList
  | .bool true => "true".toList
  | .bool false => "false".toList
  | .number value => Text.decimal value
  | .string value => Json.string value

/-- Parts with a comma between each two. -/
def commaSeparated (parts : List Text) : Text := [','].intercalate parts

/-- A record on one line. -/
def Record.compact (record : Record) : Text :=
  ['\x7b'] ++
    commaSeparated (record.map fun (name, value) => string name ++ [':'] ++ value.render) ++
    ['\x7d']

/-- A new line that starts with `indent` spaces. -/
def lineBreak (indent : Nat) : Text := '\n' :: List.replicate indent ' '

/-- Parts between two brackets, each on a line of its own two places behind `indent`. -/
def spread (opening closing : Char) (indent : Nat) (parts : List Text) : Text :=
  if parts.isEmpty then [opening, closing]
  else
    [opening] ++ commaSeparated (parts.map fun part => lineBreak (indent + 2) ++ part) ++
      lineBreak indent ++ [closing]

/-- A record with one field on a line, whose brackets stand at `indent`. -/
def Record.spread (indent : Nat) (record : Record) : Text :=
  Json.spread '\x7b' '\x7d' indent
    (record.map fun (name, value) => string name ++ [':', ' '] ++ value.render)

/-- A list of records with one field on a line. -/
def spreadRecords (records : List Record) : Text :=
  Json.spread '[' ']' 0 (records.map (Record.spread 2))

end BooleanLexer.Json
