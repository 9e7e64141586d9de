/-
# BooleanLexer.Item.Basic -- tokens at their places

An item is a token together with the bytes of the text that it was read from.  The
end of the text is an item too, with an empty span.  An item of an unknown character
stands for an error, which names the character and its place.
-/
import BooleanLexer.Log
import BooleanLexer.Token

namespace BooleanLexer

set_option autoImplicit false

/-- A range of bytes of a text, from `start` up to and without `stop`. -/
structure Span where
  start : Nat
  /-- The byte after the last one. -/
  stop : Nat
deriving DecidableEq

/-- How many bytes a span holds. -/
def Span.size (span : Span) : Nat := span.stop - span.start

/-- A character that starts no token. -/
structure Unexpected where
  character : Char
  offset : Nat
deriving DecidableEq

/-- What is said about an unexpected character. -/
def Unexpected.message (error : Unexpected) : Text :=
  "Unexpected character ".toList ++ Text.quotedChar error.character ++
    " at offset ".toList ++ Text.decimal error.offset ++ ".".toList

/-- A token and the bytes that it was read from. -/
structure Item where
  token : Token
  span : Span
deriving DecidableEq

namespace Item

/-- Whether an item is the end of the text. -/
def isFinish (item : Item) : Bool := item.token.kind = .finish

/-- The error that an item of an unknown character stands for. -/
def error? (item : Item) : Option Unexpected :=
  match item.token.kind, item.token.symbol with
  | .unknown, some character => some ⟨character, item.span.start⟩
  | _, _ => none

/-- The record that reading an item leaves; reaching the end of the text leaves none. -/
def traceRecord? (item : Item) : Option Log.Record :=
  if item.isFinish then none
  else
    some ⟨.trace, "scanned ".toList ++ item.token.display ++
      " at offset ".toList ++ Text.decimal item.span.start⟩

end Item

end BooleanLexer
