/-
# BooleanLexer.Lexeme -- the token at the head of a text

`Lexeme.ofHead` decides from the first character of a text, and from the second
where the first may be doubled, which token the text starts with and how many bytes
it takes.  Every character starts a token: one that no rule knows is a token of kind
`unknown`.  A doubled operator is read as one token, so it is never read as two.
-/
import BooleanLexer.Token

namespace BooleanLexer

set_option autoImplicit false

/-- A token and the number of bytes that it is written with. -/
structure Lexeme where
  token : Token
  /-- How many bytes of the text it takes. -/
  width : Nat
deriving DecidableEq

namespace Lexeme

/-- The lexeme of a text that starts with `c`, where `next?` is the character after it. -/
def ofHead (c : Char) (next? : Option Char) : Lexeme :=
  if 'a' ≤ c ∧ c ≤ 'z' then ⟨.ident c (c.toNat - 'a'.toNat), 1⟩
  else if 'A' ≤ c ∧ c ≤ 'Z' then ⟨.ident c (letterCount + (c.toNat - 'A'.toNat)), 1⟩
  else
    match c with
    | '|' => ⟨.plain .or c, if next? = some '|' then 2 else 1⟩
    | '+' => ⟨.plain .or c, 1⟩
    | '^' => ⟨.plain .xor c, 1⟩
    | '&' => ⟨.plain .and c, if next? = some '&' then 2 else 1⟩
    | '*' => ⟨.plain .and c, 1⟩
    | '!' | '~' => ⟨.plain .not c, 1⟩
    | '(' => ⟨.plain .opening c, 1⟩
    | ')' => ⟨.plain .closing c, 1⟩
    | _ => ⟨.plain .unknown c, c.utf8Size⟩

theorem width_pos (c : Char) (next? : Option Char) : 0 < (ofHead c next?).width := by
  have := c.utf8Size_pos
  unfold ofHead
  repeat' split
  all_goals grind

theorem kind_ne_finish (c : Char) (next? : Option Char) :
    (ofHead c next?).token.kind ≠ .finish := by
  unfold ofHead
  repeat' split
  all_goals simp [Token.ident, Token.plain]

end Lexeme

end BooleanLexer
