/-
# BooleanLexer.Token -- tokens and their attributes

A token carries its kind, the character that it was read from and, for a letter,
the index of the literal that the letter spells.  Records that no reader makes are
values of the type too: `literal?` looks at kind and index alone, and `display`
shows a letter or an unknown character only where there is one.
-/
import BooleanLexer.Kind
import BooleanLexer.Literal
import BooleanLexer.Text.Quoted

namespace BooleanLexer

set_option autoImplicit false

/-- A token with its attributes. -/
structure Token where
  kind : Kind
  /-- The character that the token starts with; the end of the text has none. -/
  symbol : Option Char
  /-- The index of the literal, for a letter; otherwise zero. -/
  index : Nat
deriving DecidableEq

namespace Token

instance : Inhabited Token := ⟨⟨default, none, 0⟩⟩

/-- A token of any kind but a letter, read from `symbol`. -/
def plain (kind : Kind) (symbol : Char) : Token := ⟨kind, some symbol, 0⟩

/-- A letter and the index of the literal that it spells. -/
def ident (letter : Char) (index : Nat) : Token := ⟨.ident, some letter, index⟩

/-- The end of the text. -/
def finish : Token := ⟨.finish, none, 0⟩

/-- The literal that a letter spells. -/
def literal? (token : Token) : Option Literal :=
  match token.kind with
  | .ident => Literal.ofIndex? token.index
  | _ => none

/-- Whether reading an expression stops after this token. -/
def isTerminal (token : Token) : Bool := token.kind.isTerminal

/-- A token as reports and log records show it. -/
def display (token : Token) : Text :=
  match token.kind, token.symbol with
  | .ident, some letter =>
      "ID(".toList ++ [letter] ++ "=".toList ++ Text.decimal token.index ++ ")".toList
  | .unknown, some c => "NONE(".toList ++ Text.quotedChar c ++ ")".toList
  | kind, _ => kind.spelling

end Token

end BooleanLexer
