/-
# BooleanLexer.Proofs.Literal.Letters -- letters and the literals that they spell

Every letter spells a literal (`exists_letter_eq`), and the token that is read from the letter
of a literal decodes to that literal again (`literal?_leading_letter`).
-/
import BooleanLexer.Proofs.Lexeme.Alphabet

namespace BooleanLexer.Literal

set_option autoImplicit false

open Text (IsLetter)

theorem exists_letter_eq {c : Char} (letter : IsLetter c) :
    ∃ literal : Literal, literal.letter = c := by
  have of_base (base : Char) (negated : Bool) (ge : base ≤ c) (le : c.toNat < base.toNat + 26)
      (is_base : (if negated then 'A' else 'a') = base) :
      ∃ literal : Literal, literal.letter = c := by
    have ge : base.toNat ≤ c.toNat := UInt32.le_iff_toNat_le.mp ge
    have bound : c.toNat - base.toNat < letterCount := by
      rw [letterCount]
      omega
    refine ⟨⟨⟨c.toNat - base.toNat, bound⟩, negated⟩, ?_⟩
    have same : base.toNat + (c.toNat - base.toNat) = c.toNat := by omega
    rw [Literal.letter, is_base, same, Char.ofNat_toNat]
  rcases letter with ⟨ge, le⟩ | ⟨ge, le⟩
  · have le : c.toNat ≤ 'z'.toNat := UInt32.le_iff_toNat_le.mp le
    exact of_base 'a' false ge (Nat.lt_of_le_of_lt le (by decide)) rfl
  · have le : c.toNat ≤ 'Z'.toNat := UInt32.le_iff_toNat_le.mp le
    exact of_base 'A' true ge (Nat.lt_of_le_of_lt le (by decide)) rfl

theorem isLetter_letter (literal : Literal) : IsLetter literal.letter := by
  have table : ∀ (var : Fin letterCount) (negated : Bool),
      IsLetter (letter ⟨var, negated⟩) := by decide
  exact table literal.var literal.negated

theorem leading_letter (literal : Literal) :
    Token.leading literal.letter = .ident literal.letter literal.index := by
  have table : ∀ (var : Fin letterCount) (negated : Bool),
      Token.leading (letter ⟨var, negated⟩) =
        .ident (letter ⟨var, negated⟩) (index ⟨var, negated⟩) := by decide
  exact table literal.var literal.negated

theorem literal?_leading_letter (literal : Literal) :
    (Token.leading literal.letter).literal? = some literal := by
  rw [leading_letter]
  exact ofIndex?_index literal

end BooleanLexer.Literal
