/-
# BooleanLexer.Proofs.Lexeme.Alphabet -- what a character starts

Which token a text starts with depends on its first character alone (`token_ofHead`).
The character after it decides only whether an operator is doubled, and with that how
much of the text is taken (`written`) and what is left over (`after`).  Apart from
blanks, the characters that start a token of a known kind are the letters and nine
more (`kind_leading_eq_unknown_iff`).
-/
import BooleanLexer.Lexeme
import BooleanLexer.Text.Blank

namespace BooleanLexer

set_option autoImplicit false

namespace Text

/-- A letter of the ASCII alphabet, in either case. -/
def IsLetter (c : Char) : Prop := ('a' ≤ c ∧ c ≤ 'z') ∨ ('A' ≤ c ∧ c ≤ 'Z')

instance (c : Char) : Decidable (IsLetter c) := inferInstanceAs (Decidable (_ ∨ _))

/-- The characters that operators and brackets are written with. -/
def marks : List Char := ['|', '+', '^', '&', '*', '!', '~', '(', ')']

theorem lt_128_of_isLetter {c : Char} (letter : IsLetter c) : c.toNat < 128 := by
  rcases letter with ⟨-, le⟩ | ⟨-, le⟩
  · have : c.toNat ≤ 'z'.toNat := UInt32.le_iff_toNat_le.mp le
    exact Nat.lt_of_le_of_lt this (by decide)
  · have : c.toNat ≤ 'Z'.toNat := UInt32.le_iff_toNat_le.mp le
    exact Nat.lt_of_le_of_lt this (by decide)

theorem utf8Size_of_lt_128 {c : Char} (ascii : c.toNat < 128) : c.utf8Size = 1 := by
  rw [Char.utf8Size_eq_one_iff, UInt32.le_iff_toNat_le]
  exact Nat.le_of_lt_succ ascii

theorem not_isBlank_of_isLetter {c : Char} (letter : IsLetter c) : isBlank c = false := by
  apply Bool.eq_false_iff.mpr
  intro blank
  simp only [isBlank, blanks, List.contains_eq_mem, decide_eq_true_eq, List.mem_cons,
    List.not_mem_nil, or_false] at blank
  rcases blank with rfl | rfl | rfl | rfl | rfl | rfl <;> exact absurd letter (by decide)

theorem solid_of_doubles {c : Char} (doubles : c = '|' ∨ c = '&') : isBlank c = false := by
  rcases doubles with rfl | rfl <;> rfl

end Text

/-- The token that a character starts. -/
def Token.leading (c : Char) : Token := (Lexeme.ofHead c none).token

namespace Lexeme

open Text (IsLetter marks byteSize)

/-- The next character does not matter for the token. -/
theorem token_ofHead (c : Char) (next? : Option Char) :
    (ofHead c next?).token = Token.leading c := by
  unfold Token.leading ofHead
  split
  · rfl
  · split
    · rfl
    · split <;> rfl

theorem kind_leading_ne_finish (c : Char) : (Token.leading c).kind ≠ .finish :=
  kind_ne_finish c none

theorem symbol_leading (c : Char) : (Token.leading c).symbol = some c := by
  unfold Token.leading ofHead
  split
  · rfl
  · split
    · rfl
    · split <;> rfl

theorem kind_leading_eq_unknown_iff (c : Char) :
    (Token.leading c).kind = .unknown ↔ ¬ IsLetter c ∧ c ∉ marks := by
  unfold Token.leading ofHead IsLetter marks
  split
  · simp_all [Token.ident]
  · split
    · simp_all [Token.ident]
    · split <;> simp_all [Token.plain]

theorem kind_leading_eq_ident_iff (c : Char) :
    (Token.leading c).kind = .ident ↔ IsLetter c := by
  unfold Token.leading ofHead IsLetter
  split
  · simp_all [Token.ident]
  · split
    · simp_all [Token.ident]
    · split <;> simp_all [Token.plain]

/-- Only letters have an index. -/
theorem index_leading_eq_zero {c : Char} (other : ¬ IsLetter c) :
    (Token.leading c).index = 0 := by
  obtain ⟨no_lower, no_upper⟩ := not_or.mp other
  unfold Token.leading ofHead
  rw [if_neg no_lower, if_neg no_upper]
  split <;> rfl

/-! ## Doubled operators -/

/-- Whether the operator `c` is doubled by the text behind it. -/
def isDoubled (c : Char) (rest : Text) : Bool := (c = '|' || c = '&') && rest.head? = some c

@[simp] theorem isDoubled_nil (c : Char) : isDoubled c [] = false := by simp [isDoubled]

theorem isDoubled_cons_self {c : Char} (doubles : c = '|' ∨ c = '&') (rest : Text) :
    isDoubled c (c :: rest) = true := by
  rcases doubles with rfl | rfl <;> rfl

/-- What the token that `c` starts in front of `rest` is written with. -/
def written (c : Char) (rest : Text) : Text := if isDoubled c rest then [c, c] else [c]

/-- What follows the token that `c` starts in front of `rest`. -/
def after (c : Char) (rest : Text) : Text := if isDoubled c rest then rest.tail else rest

/-- Only a bar or an ampersand is ever doubled. -/
theorem doubles_of_isDoubled {c : Char} {rest : Text} (doubled : isDoubled c rest = true) :
    c = '|' ∨ c = '&' := by
  simpa using (Bool.and_eq_true_iff.mp doubled).1

theorem exists_cons_of_isDoubled {c : Char} {rest : Text} (doubled : isDoubled c rest = true) :
    ∃ tail, rest = c :: tail := by
  have head : rest.head? = some c := by simpa using (Bool.and_eq_true_iff.mp doubled).2
  exact List.head?_eq_some_iff.mp head

theorem written_append_after (c : Char) (rest : Text) :
    written c rest ++ after c rest = c :: rest := by
  unfold written after
  split
  · next doubled =>
      obtain ⟨tail, rfl⟩ := exists_cons_of_isDoubled doubled
      rfl
  · rfl

theorem written_ne_nil (c : Char) (rest : Text) : written c rest ≠ [] := by
  unfold written
  split <;> simp

theorem eq_of_mem_written {c d : Char} {rest : Text} (mem : d ∈ written c rest) : d = c := by
  unfold written at mem
  split at mem <;> simpa using mem

theorem length_after_le (c : Char) (rest : Text) : (after c rest).length ≤ rest.length := by
  unfold after
  split
  · simp
  · exact Nat.le_refl _

/-- A lexeme is as wide as what it is written with. -/
theorem width_ofHead (c : Char) (rest : Text) :
    (ofHead c rest.head?).width = byteSize (written c rest) := by
  unfold ofHead written isDoubled
  split
  · next lower =>
      have := Text.utf8Size_of_lt_128 (Text.lt_128_of_isLetter (Or.inl lower))
      have bar : c ≠ '|' := by rintro rfl; exact absurd lower (by decide)
      have ampersand : c ≠ '&' := by rintro rfl; exact absurd lower (by decide)
      simp [bar, ampersand, this]
  · split
    · next upper =>
        have := Text.utf8Size_of_lt_128 (Text.lt_128_of_isLetter (Or.inr upper))
        have bar : c ≠ '|' := by rintro rfl; exact absurd upper (by decide)
        have ampersand : c ≠ '&' := by rintro rfl; exact absurd upper (by decide)
        simp [bar, ampersand, this]
    · split
      case h_1 => by_cases doubled : rest.head? = some '|' <;> simp [doubled] <;> rfl
      case h_4 => by_cases doubled : rest.head? = some '&' <;> simp [doubled] <;> rfl
      case h_10 => simp_all
      all_goals rfl

end Lexeme

end BooleanLexer
