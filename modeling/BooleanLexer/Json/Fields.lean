/-
# BooleanLexer.Json.Fields -- the records of tokens and literals

Which fields tokens and literals have in structured output, and in which order.
-/
import BooleanLexer.Json.Basic
import BooleanLexer.Token

namespace BooleanLexer

set_option autoImplicit false

/-- The fields of a token: its kind, its character, and its index. -/
def Token.fields (token : Token) : Json.Record :=
  [("token".toList, .string token.kind.name),
    ("source_symbol".toList, token.symbol.elim .null fun c => .string [c]),
    ("variable_index".toList, .number token.index)]

/-- The fields of a literal: its variable and its sign. -/
def Literal.fields (literal : Literal) : Json.Record :=
  [("variable".toList, .number literal.var), ("negated".toList, .bool literal.negated)]

end BooleanLexer
