/-
# BooleanLexer.Report -- the tokens of a text in three formats

The text format has a line for each item: the offset, right-aligned in four places,
the token, the source text that it was read from between quotation marks unless that
is empty, and for a letter the literal, where a negated one is shown as `NOT` and the
lowercase letter.

The other two formats hold the fields of the tokens, without their places: one list
that is spread over lines, or one record on each line.
-/
import BooleanLexer.Item.Basic
import BooleanLexer.Json.Fields

namespace BooleanLexer.Report

set_option autoImplicit false

/-- How a report is written. -/
inductive Format where
  | text
  | json
  | ndjson
deriving DecidableEq

namespace Format

instance : Inhabited Format := ⟨text⟩

/-- Every format. -/
def all : List Format := [text, json, ndjson]

/-- The name of a format on the command line. -/
def name : Format → Text
  | text => "text".toList
  | json => "json".toList
  | ndjson => "ndjson".toList

/-- The format of a given name. -/
def ofName? (name : Text) : Option Format := all.find? fun format => format.name = name

end Format

/-- A literal in a report. -/
def literalColumn (literal : Literal) : Text :=
  if literal.negated then "NOT ".toList ++ [literal.plainLetter] else literal.display

/-- The line of an item that was read from `spanned`. -/
def line (item : Item) (spanned : Text) : Text :=
  List.leftpad 4 ' ' (Text.decimal item.span.start) ++ "  ".toList ++ item.token.display ++
    (if item.span.size = 0 then [] else "  ".toList ++ Text.quoted spanned) ++
    (item.token.literal?.elim [] fun literal => "  ".toList ++ literalColumn literal) ++ ['\n']

/-- The lines of items in the order of their places, where `text` stands at `position`. -/
def lines (position : Nat) (text : Text) : List Item → List Text
  | [] => []
  | item :: items =>
      let ahead := Text.dropBytes (item.span.start - position) text
      line item (Text.takeBytes item.span.size ahead) :: lines item.span.start ahead items

/-- The report on the items of a source. -/
def render (format : Format) (source : Text) (items : List Item) : Text :=
  match format with
  | .text => (lines 0 source items).flatten
  | .json => Json.spreadRecords (items.map fun item => item.token.fields) ++ ['\n']
  | .ndjson => (items.map fun item => item.token.fields.compact ++ ['\n']).flatten

end BooleanLexer.Report
