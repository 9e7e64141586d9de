/-
# BooleanLexer.Proofs.Item.Grammar -- what each token is written with

`Token.Spelled` lists, without reading anything, the texts that a token may be written
with.  What the reader takes for a token is one of them (`Spelled.written`), and none
that stands at the same place is longer (`Spelled.eq_written`): only `||` and `&&` go
on where another spelling ends.
-/
import BooleanLexer.Proofs.Item.Steps

namespace BooleanLexer

set_option autoImplicit false

open Text (blanks isBlank marks IsLetter byteSize Written)

/-! ## Spellings -/

/-- The operators and brackets, each beside a text that it may be written with. -/
def operators : List (Kind × Text) := [
  (.or, ['|']), (.or, ['|', '|']), (.or, ['+']), (.xor, ['^']),
  (.and, ['&']), (.and, ['&', '&']), (.and, ['*']), (.not, ['!']), (.not, ['~']),
  (.opening, ['(']), (.closing, [')'])]

/-- What a token may be written with. -/
inductive Token.Spelled : Token → Text → Prop where
  /-- A lowercase letter; its index counts from `a`. -/
  | lower {c : Char} : 'a' ≤ c → c ≤ 'z' → Spelled (.ident c (c.toNat - 'a'.toNat)) [c]
  /-- An uppercase letter; its index counts from `A` behind the lowercase ones. -/
  | upper {c : Char} : 'A' ≤ c → c ≤ 'Z' → Spelled (.ident c (26 + (c.toNat - 'A'.toNat))) [c]
  /-- An operator or a bracket. -/
  | operator {kind : Kind} {c : Char} {text : Text} :
      (kind, c :: text) ∈ operators → Spelled (.plain kind c) (c :: text)
  /-- One character that is neither blank nor the start of another token. -/
  | unknown {c : Char} : c ∉ blanks → ¬ IsLetter c → c ∉ marks → Spelled (.plain .unknown c) [c]

theorem isBlank_eq_false_iff {c : Char} : isBlank c = false ↔ c ∉ blanks := by
  simp [isBlank]

theorem leading_of_lower {c : Char} (ge : 'a' ≤ c) (le : c ≤ 'z') :
    Token.leading c = .ident c (c.toNat - 'a'.toNat) := by
  unfold Token.leading Lexeme.ofHead
  rw [if_pos ⟨ge, le⟩]

theorem leading_of_upper {c : Char} (ge : 'A' ≤ c) (le : c ≤ 'Z') :
    Token.leading c = .ident c (26 + (c.toNat - 'A'.toNat)) := by
  have upper : ¬ ('a' ≤ c ∧ c ≤ 'z') := fun lower =>
    absurd (Char.le_trans lower.1 le) (by decide)
  unfold Token.leading Lexeme.ofHead
  rw [if_neg upper, if_pos ⟨ge, le⟩, letterCount]

theorem leading_of_operator {kind : Kind} {c : Char} {text : Text}
    (operator : (kind, c :: text) ∈ operators) : Token.leading c = .plain kind c := by
  have table : operators.all (fun entry =>
      entry.2.head?.all fun c => Token.leading c = .plain entry.1 c) = true := by decide
  exact of_decide_eq_true (List.all_eq_true.mp table _ operator)

theorem leading_of_unknown {c : Char} (letter : ¬ IsLetter c) (mark : c ∉ marks) :
    Token.leading c = .plain .unknown c := by
  have unknown := (Lexeme.kind_leading_eq_unknown_iff c).mpr ⟨letter, mark⟩
  unfold Token.leading Lexeme.ofHead at unknown ⊢
  rw [if_neg fun lower => letter (.inl lower), if_neg fun upper => letter (.inr upper)]
    at unknown ⊢
  split at unknown <;> simp_all [Token.plain]

theorem exists_operator_of_mem_marks {c : Char} (mark : c ∈ marks) :
    ∃ kind, (kind, [c]) ∈ operators := by
  have table : marks.all (fun c => [c] ∈ operators.map Prod.snd) = true := by decide
  have single := of_decide_eq_true (List.all_eq_true.mp table c mark)
  obtain ⟨⟨kind, _⟩, mem, rfl⟩ := List.mem_map.mp single
  exact ⟨kind, mem⟩

theorem Lexeme.written_of_not_mem_marks {c : Char} (mark : c ∉ marks) (rest : Text) :
    written c rest = [c] := by
  have bar : c ≠ '|' := by rintro rfl; exact mark (by decide)
  have ampersand : c ≠ '&' := by rintro rfl; exact mark (by decide)
  simp [written, isDoubled, bar, ampersand]

namespace Token.Spelled

/-- A spelling starts with the character that its token is read from, and can go on only
with that character once more. -/
theorem inversion {token : Token} {part : Text} (spelled : token.Spelled part) :
    ∃ c, isBlank c = false ∧ token = .leading c ∧
      (part = [c] ∨ part = [c, c] ∧ (c = '|' ∨ c = '&')) := by
  cases spelled with
  | @lower c ge le =>
      exact ⟨c, Text.not_isBlank_of_isLetter (.inl ⟨ge, le⟩), (leading_of_lower ge le).symm,
        .inl rfl⟩
  | @upper c ge le =>
      exact ⟨c, Text.not_isBlank_of_isLetter (.inr ⟨ge, le⟩), (leading_of_upper ge le).symm,
        .inl rfl⟩
  | @operator kind c text operator =>
      have table : operators.all (fun entry => entry.2.head?.all fun c => isBlank c = false ∧
          (entry.2 = [c] ∨ entry.2 = [c, c] ∧ (c = '|' ∨ c = '&'))) = true := by decide
      obtain ⟨solid, part⟩ := of_decide_eq_true (List.all_eq_true.mp table _ operator)
      exact ⟨c, solid, (leading_of_operator operator).symm, part⟩
  | @unknown c solid letter mark =>
      exact ⟨c, isBlank_eq_false_iff.mpr solid, (leading_of_unknown letter mark).symm, .inl rfl⟩

/-- What is read is a spelling. -/
theorem written {c : Char} (solid : isBlank c = false) (rest : Text) :
    (leading c).Spelled (Lexeme.written c rest) := by
  by_cases mark : c ∈ marks
  · unfold Lexeme.written
    split
    · next doubled =>
        rcases Lexeme.doubles_of_isDoubled doubled with rfl | rfl
        · exact operator (show (Kind.or, ['|', '|']) ∈ operators by decide)
        · exact operator (show (Kind.and, ['&', '&']) ∈ operators by decide)
    · obtain ⟨kind, mem⟩ := exists_operator_of_mem_marks mark
      exact leading_of_operator mem ▸ operator mem
  · rw [Lexeme.written_of_not_mem_marks mark]
    by_cases letter : IsLetter c
    · rcases letter with ⟨ge, le⟩ | ⟨ge, le⟩
      · exact leading_of_lower ge le ▸ lower ge le
      · exact leading_of_upper ge le ▸ upper ge le
    · rw [leading_of_unknown letter mark]
      exact unknown (isBlank_eq_false_iff.mp solid) letter mark

/-- No spelling at the head of a text is longer than what is read there, and one that is
as long is what is read. -/
theorem eq_written {token : Token} {part second rest : Text} {c : Char}
    (spelled : token.Spelled part) (starts : c :: rest = part ++ second) :
    isBlank c = false ∧ token = .leading c ∧ byteSize part ≤ byteSize (Lexeme.written c rest) ∧
      (byteSize (Lexeme.written c rest) ≤ byteSize part → part = Lexeme.written c rest) := by
  obtain ⟨d, solid, rfl, shape⟩ := spelled.inversion
  rcases shape with rfl | ⟨rfl, twice⟩
  · obtain ⟨rfl, rfl⟩ := List.cons.inj starts
    have := c.utf8Size_pos
    refine ⟨solid, rfl, ?_⟩
    unfold Lexeme.written
    split
    · simp only [Text.byteSize_cons, Text.byteSize_nil]
      constructor <;> omega
    · simp
  · obtain ⟨rfl, rfl⟩ := List.cons.inj starts
    have doubled := Lexeme.isDoubled_cons_self twice second
    simp [solid, Lexeme.written, doubled]

end Token.Spelled

end BooleanLexer
