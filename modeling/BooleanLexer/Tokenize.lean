/-
# BooleanLexer.Tokenize -- the tokens of a text, or its first error

Tokenizing reads a text up to its end or to the first unexpected character, and in
that case it answers with the error alone.
-/
import BooleanLexer.Item.Reading

namespace BooleanLexer

set_option autoImplicit false

/-- The items that are read to tokenize a text: all of them, or those up to the first
unexpected character. -/
def tokenizeItems (text : Text) : List Item :=
  Item.readUntil (fun item => item.error?.isSome) 0 text

/-- The tokens of a text with its end, or the error of its first unexpected character. -/
def tokenize (text : Text) : Except Unexpected (List Token) :=
  match (tokenizeItems text).findSome? Item.error? with
  | some error => .error error
  | none => .ok ((tokenizeItems text).map Item.token)

end BooleanLexer
