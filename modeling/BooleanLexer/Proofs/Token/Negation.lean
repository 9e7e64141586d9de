/-
# BooleanLexer.Proofs.Token.Negation -- uppercase letters and negated lowercase ones

An uppercase letter means the same as `!` in front of the lowercase one.  `Text.spellOut` writes
every uppercase letter of a text that way, and `Token.spellOut` makes the two tokens out of one.
It makes no difference which is done first, reading or spelling out (`tokens_spellOut`): a letter
and `!` are lexemes by themselves, and neither doubles an operator in front of it.

What is spelled out has no negated literals, and it has the unexpected characters that it had
before, each behind as many bytes more as there are uppercase letters in front of it
(`uppercase_is_negation`).
-/
import BooleanLexer.Proofs.Literal.Codec

namespace BooleanLexer

set_option autoImplicit false

open Text (IsLetter IsExpected byteSize isBlank unexpected)

namespace Text

/-- An uppercase letter of the ASCII alphabet. -/
def IsUpper (c : Char) : Prop := 'A' ≤ c ∧ c ≤ 'Z'

instance (c : Char) : Decidable (IsUpper c) := inferInstanceAs (Decidable (_ ∧ _))

/-- `!` and the lowercase letter for an uppercase one; any other character by itself. -/
def negation (c : Char) : Text := if IsUpper c then ['!', c.toLower] else [c]

/-- A text with `!` and the lowercase letter for every uppercase one. -/
def spellOut (text : Text) : Text := text.flatMap negation

theorem spellOut_cons (c : Char) (rest : Text) :
    spellOut (c :: rest) = negation c ++ spellOut rest :=
  List.flatMap_cons

theorem spellOut_cons_of_not_isUpper {c : Char} (other : ¬ IsUpper c) (rest : Text) :
    spellOut (c :: rest) = c :: spellOut rest := by
  rw [spellOut_cons, negation, if_neg other, List.singleton_append]

theorem spellOut_append (first second : Text) :
    spellOut (first ++ second) = spellOut first ++ spellOut second :=
  List.flatMap_append

end Text

open Text (IsUpper negation spellOut)

/-- The tokens of `!` and of the lowercase letter for the token of an uppercase one; any other
token by itself. -/
def Token.spellOut (token : Token) : List Token :=
  if token.kind = .ident ∧ 26 ≤ token.index then
    [.plain .not '!', ⟨.ident, token.symbol.map Char.toLower, token.index - 26⟩]
  else [token]

/-! ## Character by character -/

/-- The literal of the same variable that is not negated. -/
def Literal.plain (literal : Literal) : Literal := { literal with negated := false }

/-- A character and its token are spelled out together: both of an uppercase letter, and neither
of any other character. -/
theorem spellOut_cases (c : Char) :
    (∃ literal : Literal, c = literal.letter ∧ literal.negated = true ∧
      negation c = ['!', literal.plain.letter] ∧
      (Token.leading c).spellOut = [.plain .not '!', Token.leading literal.plain.letter]) ∨
    ¬ IsUpper c ∧ negation c = [c] ∧ (Token.leading c).spellOut = [Token.leading c] := by
  by_cases letter : IsLetter c
  · obtain ⟨⟨var, negated⟩, rfl⟩ := Literal.exists_letter_eq letter
    cases negated with
    | true =>
        left
        have table : ∀ var : Fin letterCount,
            negation (Literal.letter ⟨var, true⟩) = ['!', Literal.letter ⟨var, false⟩] ∧
            (Token.leading (Literal.letter ⟨var, true⟩)).spellOut =
              [.plain .not '!', Token.leading (Literal.letter ⟨var, false⟩)] := by decide
        exact ⟨⟨var, true⟩, rfl, rfl, table var⟩
    | false =>
        right
        have table : ∀ var : Fin letterCount, ¬ IsUpper (Literal.letter ⟨var, false⟩) ∧
            negation (Literal.letter ⟨var, false⟩) = [Literal.letter ⟨var, false⟩] ∧
            (Token.leading (Literal.letter ⟨var, false⟩)).spellOut =
              [Token.leading (Literal.letter ⟨var, false⟩)] := by decide
        exact table var
  · have no_upper : ¬ IsUpper c := fun upper => letter (.inr upper)
    have no_ident : (Token.leading c).kind ≠ .ident :=
      mt (Lexeme.kind_leading_eq_ident_iff c).mp letter
    exact .inr ⟨no_upper, if_neg no_upper, if_neg fun ident => no_ident ident.1⟩

/-! ## Tokens -/

/-- An operator that may be doubled goes on in what is spelled out exactly where it did. -/
theorem Text.head?_spellOut_eq_some_iff {c : Char} (doubles : c = '|' ∨ c = '&') (rest : Text) :
    (spellOut rest).head? = some c ↔ rest.head? = some c := by
  cases rest with
  | nil => rfl
  | cons d rest =>
      rw [spellOut_cons]
      rcases spellOut_cases d with ⟨literal, rfl, -, spelled, -⟩ | ⟨-, single, -⟩
      · have letter := literal.isLetter_letter
        rw [spelled]
        constructor
        · intro head
          rcases doubles with rfl | rfl <;> cases head
        · intro head
          rw [Option.some.inj head] at letter
          rcases doubles with rfl | rfl <;> exact absurd letter (by decide)
      · rw [single]
        rfl

theorem Lexeme.after_spellOut (c : Char) (rest : Text) :
    after c (spellOut rest) = spellOut (after c rest) := by
  have same : isDoubled c (spellOut rest) = isDoubled c rest := by
    unfold isDoubled
    by_cases doubles : c = '|' ∨ c = '&'
    · simp only [Text.head?_spellOut_eq_some_iff doubles]
    · simp [not_or.mp doubles]
  rw [after, after, same]
  split
  · next doubled =>
      obtain ⟨tail, rfl⟩ := exists_cons_of_isDoubled doubled
      have single : negation c = [c] := by
        rcases doubles_of_isDoubled doubled with rfl | rfl <;> decide
      rw [Text.spellOut_cons, single, List.singleton_append, List.tail_cons, List.tail_cons]
  · rfl

namespace Text

/-- Reading what is spelled out spells out what is read. -/
theorem tokens_spellOut (text : Text) :
    tokens (spellOut text) = (tokens text).flatMap Token.spellOut := by
  induction text using Text.reading_induction with
  | nil => rw [tokens_nil]; exact tokens_nil
  | blank c rest blank ih =>
      rcases spellOut_cases c with ⟨literal, rfl, -⟩ | ⟨-, single, -⟩
      · rw [not_isBlank_of_isLetter literal.isLetter_letter] at blank
        cases blank
      · rw [spellOut_cons, single, List.singleton_append, tokens_cons_blank blank,
          tokens_cons_blank blank, ih]
  | lexeme c rest solid ih =>
      rw [tokens_cons solid, List.flatMap_cons, ← ih, spellOut_cons]
      rcases spellOut_cases c with ⟨literal, rfl, -, spelled, parts⟩ | ⟨-, single, part⟩
      · -- Nothing doubles `!`, and nothing goes on behind a letter.
        have alone : Lexeme.after '!' (literal.plain.letter :: spellOut rest) =
            literal.plain.letter :: spellOut rest := rfl
        have behind := (Lexeme.after_letter literal.isLetter_letter rest).2
        rw [spelled, parts, behind, List.cons_append, List.singleton_append, tokens_cons rfl,
          alone, tokens_cons_letter literal.plain.isLetter_letter]
        rfl
      · rw [single, part, List.singleton_append, tokens_cons solid, Lexeme.after_spellOut]
        rfl

/-- What is spelled out has no negated literal. -/
theorem negated_of_mem_tokens_spellOut {text : Text} {token : Token} {literal : Literal}
    (mem : token ∈ tokens (spellOut text)) (found : token.literal? = some literal) :
    literal.negated = false := by
  have plain {source : Literal} (read : token = Token.leading source.letter) :
      source = literal := by
    rw [read, Literal.literal?_leading_letter] at found
    exact Option.some.inj found
  rw [tokens_spellOut] at mem
  obtain ⟨read, read_mem, part⟩ := List.mem_flatMap.mp mem
  obtain ⟨c, -, rfl⟩ := exists_of_mem_tokens read_mem
  rcases spellOut_cases c with ⟨source, rfl, -, -, parts⟩ | ⟨no_upper, -, same⟩
  · rw [parts] at part
    rcases List.mem_cons.mp part with rfl | part
    · cases found
    · rw [← plain (List.mem_singleton.mp part)]
      rfl
  · rw [same, List.mem_singleton] at part
    by_cases letter : IsLetter c
    · obtain ⟨source, rfl⟩ := Literal.exists_letter_eq letter
      rw [← plain part]
      exact Bool.eq_false_iff.mpr (mt source.negated_iff.mp no_upper)
    · rw [part, Literal.literal?_leading_eq_none letter] at found
      cases found

/-! ## Errors -/

/-- The first unexpected character of a text stands behind expected ones. -/
theorem head?_unexpected_eq_some_iff {position : Nat} {text : Text} {c : Char} {offset : Nat} :
    (unexpected position text).head? = some ⟨c, offset⟩ ↔
      ∃ front back, text = front ++ c :: back ∧ (∀ d ∈ front, IsExpected d) ∧ ¬ IsExpected c ∧
        position + byteSize front = offset := by
  constructor
  · induction text generalizing position with
    | nil => nofun
    | cons d rest ih =>
        intro found
        by_cases expected : IsExpected d
        · rw [unexpected_cons_of_isExpected _ expected] at found
          obtain ⟨front, back, rfl, clean, strange, place⟩ := ih found
          refine ⟨d :: front, back, rfl, List.forall_mem_cons.mpr ⟨expected, clean⟩, strange, ?_⟩
          rw [byteSize_cons, ← Nat.add_assoc, place]
        · rw [unexpected_cons_of_not_isExpected _ expected, List.head?_cons] at found
          cases found
          exact ⟨[], rest, rfl, by simp, expected, rfl⟩
  · rintro ⟨front, back, rfl, clean, strange, rfl⟩
    rw [unexpected_append, unexpected_eq_nil clean, List.nil_append,
      unexpected_cons_of_not_isExpected _ strange, List.head?_cons]

/-- What an expected character is spelled out with is expected too. -/
theorem isExpected_of_mem_spellOut {text : Text} (expected : ∀ c ∈ text, IsExpected c) :
    ∀ d ∈ spellOut text, IsExpected d := by
  intro d mem
  obtain ⟨c, c_mem, part⟩ := List.mem_flatMap.mp mem
  rcases spellOut_cases c with ⟨literal, rfl, -, spelled, -⟩ | ⟨-, single, -⟩
  · rw [spelled] at part
    rcases List.mem_cons.mp part with rfl | part
    · decide
    · rw [List.mem_singleton.mp part]
      exact .inr (.inl literal.plain.isLetter_letter)
  · rw [single] at part
    rw [List.mem_singleton.mp part]
    exact expected c c_mem

/-- Spelling out takes a byte more for each uppercase letter. -/
theorem byteSize_spellOut (text : Text) :
    byteSize (spellOut text) = byteSize text + text.countP fun c => IsUpper c := by
  induction text with
  | nil => rfl
  | cons c rest ih =>
      have size {literal : Literal} : literal.letter.utf8Size = 1 :=
        utf8Size_of_lt_128 (lt_128_of_isLetter literal.isLetter_letter)
      rw [spellOut_cons, byteSize_append, ih, byteSize_cons, List.countP_cons]
      rcases spellOut_cases c with ⟨literal, rfl, negated, spelled, -⟩ | ⟨no_upper, single, -⟩
      · have upper : IsUpper literal.letter := literal.negated_iff.mp negated
        have mark : '!'.utf8Size = 1 := rfl
        simp only [spelled, byteSize_cons, byteSize_nil, size, mark, upper, decide_true, if_true]
        omega
      · simp only [single, byteSize_cons, byteSize_nil, no_upper, decide_false]
        simp
        omega

theorem tokenize_spellOut_of_error {source : Text} {c : Char} {offset : Nat}
    (failed : tokenize source = .error ⟨c, offset⟩) :
    ∃ front back, source = front ++ c :: back ∧ byteSize front = offset ∧
      tokenize (spellOut source) =
        .error ⟨c, offset + front.countP fun d => IsUpper d⟩ := by
  rw [tokenize_eq_error_iff_head?, head?_unexpected_eq_some_iff] at failed
  obtain ⟨front, back, rfl, clean, strange, rfl⟩ := failed
  refine ⟨front, back, rfl, (Nat.zero_add _).symm, ?_⟩
  have other : ¬ IsUpper c := fun upper => strange (.inr (.inl (.inr upper)))
  rw [tokenize_eq_error_iff_head?, head?_unexpected_eq_some_iff]
  refine ⟨spellOut front, spellOut back, ?_, isExpected_of_mem_spellOut clean, strange, ?_⟩
  · rw [spellOut_append, spellOut_cons_of_not_isUpper other]
  · rw [byteSize_spellOut, Nat.add_assoc]

/-- Spelling out neither makes an error nor takes one away. -/
theorem tokenize_spellOut_fails_iff (source : Text) :
    (∃ error, tokenize (spellOut source) = .error error) ↔
      ∃ error, tokenize source = .error error := by
  constructor
  · rintro ⟨error, failed⟩
    cases tokenized : tokenize source with
    | error error => exact ⟨error, rfl⟩
    | ok all =>
        obtain ⟨clean, -⟩ := tokenize_eq_ok_iff_tokens.mp tokenized
        have expected := isExpected_of_mem_spellOut (isExpected_of_unexpected_eq_nil clean)
        rw [tokenize_eq_error_iff_head?, unexpected_eq_nil expected] at failed
        cases failed
  · rintro ⟨⟨c, offset⟩, failed⟩
    obtain ⟨front, -, -, -, failed'⟩ := tokenize_spellOut_of_error failed
    exact ⟨_, failed'⟩

end Text

/-! ## In a whole source -/

/-- The two tokens of a negated literal are those that its token is replaced by. -/
theorem Literal.ident_toLower {literal : Literal} (negated : literal.negated = true) :
    Token.ident literal.letter.toLower (literal.index - 26) =
      Token.leading literal.plain.letter := by
  have table : ∀ var : Fin letterCount,
      Token.ident (Literal.letter ⟨var, true⟩).toLower (Literal.index ⟨var, true⟩ - 26) =
        Token.leading (Literal.letter ⟨var, false⟩) := by decide
  obtain ⟨var, sign⟩ := literal
  cases negated
  exact table var

theorem Literal.negated_of_le_index {literal : Literal} (large : 26 ≤ literal.index) :
    literal.negated = true := by
  by_contra plain
  have bound := literal.var.isLt
  rw [Literal.index, if_neg plain] at large
  exact absurd bound (Nat.not_lt.mpr large)

/-- A letter that is listed is one of the tokens of the text and spells a literal. -/
theorem exists_letter_of_mem_items {source : Text} {token : Token}
    (mem : token ∈ (Scan.Listing.ofText source).items.map Item.token)
    (ident : token.kind = .ident) :
    token ∈ Text.tokens source ∧ ∃ literal : Literal, token = .leading literal.letter := by
  rw [Scan.map_token_items] at mem
  rcases List.mem_append.mp mem with mem | mem
  · obtain ⟨c, -, rfl⟩ := Text.exists_of_mem_tokens mem
    obtain ⟨literal, rfl⟩ :=
      Literal.exists_letter_eq ((Lexeme.kind_leading_eq_ident_iff c).mp ident)
    exact ⟨mem, literal, rfl⟩
  · rw [List.mem_singleton.mp mem] at ident
    cases ident

/-- **An uppercase letter is a negated lowercase one.**  With `!` and the lowercase letter for
every uppercase one, a source has the tokens that it had before, with the tokens of the two for
each letter of a large index, and such a pair has the variable of the letter, which is negated.
No letter is negated any more.  Tokenizing fails at the same character as before, behind one byte
more for each uppercase letter in front of it, or not at all. -/
theorem uppercase_is_negation (source : Text) :
    let tokens := (Scan.Listing.ofText source).items.map Item.token
    let tokens' := (Scan.Listing.ofText (spellOut source)).items.map Item.token
    tokens' = tokens.flatMap Token.spellOut ∧
    (∀ token ∈ tokens, token.kind = .ident → 26 ≤ token.index → ∃ lower literal literal',
      token.spellOut = [.plain .not '!', .ident lower (token.index - 26)] ∧
      token.symbol.map Char.toLower = some lower ∧ token.literal? = some literal ∧
      (Token.ident lower (token.index - 26)).literal? = some literal' ∧
      literal.var = literal'.var ∧ literal.negated = true) ∧
    (∀ token ∈ tokens', token.kind = .ident →
      ∃ literal, token.literal? = some literal ∧ literal.negated = false) ∧
    ((∃ error, tokenize (spellOut source) = .error error) ↔
      ∃ error, tokenize source = .error error) ∧
    ∀ c offset, tokenize source = .error ⟨c, offset⟩ → ∃ front back,
      source = front ++ c :: back ∧ byteSize front = offset ∧
      tokenize (spellOut source) = .error ⟨c, offset + front.countP fun d => IsUpper d⟩ := by
  refine ⟨?_, fun token mem ident large => ?_, fun token mem ident => ?_,
    Text.tokenize_spellOut_fails_iff source, fun c offset => Text.tokenize_spellOut_of_error⟩
  · have last : [Token.finish].flatMap Token.spellOut = [.finish] := rfl
    rw [Scan.map_token_items, Scan.map_token_items, List.flatMap_append, ← Text.tokens_spellOut,
      last]
  · obtain ⟨-, literal, same⟩ := exists_letter_of_mem_items mem ident
    have spelled : token.spellOut = [.plain .not '!',
        ⟨.ident, token.symbol.map Char.toLower, token.index - 26⟩] := if_pos ⟨ident, large⟩
    rw [same, literal.leading_letter] at large spelled ⊢
    have negated := Literal.negated_of_le_index large
    have pair : (Token.ident literal.letter.toLower (literal.index - 26)).literal? =
        some literal.plain := by
      rw [Literal.ident_toLower negated, Literal.literal?_leading_letter]
    exact ⟨literal.letter.toLower, literal, literal.plain, spelled, rfl,
      literal.ofIndex?_index, pair, rfl, negated⟩
  · obtain ⟨mem, literal, rfl⟩ := exists_letter_of_mem_items mem ident
    have found := literal.literal?_leading_letter
    exact ⟨literal, found, Text.negated_of_mem_tokens_spellOut mem found⟩

/-- Uppercase letters between bars, and in front of an unexpected character of two bytes and
behind it. -/
theorem uppercase_between_bars :
    let source : Text := ['!', 'B', '|', '|', 'Z', '|', 'é', 'A']
    let tokens : List Token := [.plain .not '!', .ident 'B' 27, .plain .or '|', .ident 'Z' 51,
      .plain .or '|', .plain .unknown 'é', .ident 'A' 26, .finish]
    (Scan.Listing.ofText source).items.map Item.token = tokens ∧
      (Scan.Listing.ofText (spellOut source)).items.map Item.token =
        tokens.flatMap Token.spellOut ∧
      (∃ literal, (Token.ident 'Z' 51).literal? = some literal ∧ literal.var.val = 25 ∧
        literal.negated = true) ∧
      tokenize source = .error ⟨'é', 6⟩ ∧
      tokenize ['!', '!', 'b', '|', '|', '!', 'z', '|', 'é', '!', 'a'] = .error ⟨'é', 8⟩ := by
  intro source tokens
  have read : (Scan.Listing.ofText source).items.map Item.token = tokens := by decide +kernel
  have failed : tokenize source = .error ⟨'é', 6⟩ := by decide +kernel
  obtain ⟨replaced, pairs, -, -, errors⟩ := uppercase_is_negation source
  rw [read] at replaced pairs
  refine ⟨read, replaced, ?_, failed, ?_⟩
  · obtain ⟨lower, literal, literal', -, symbol, found, found', same, negated⟩ :=
      pairs (.ident 'Z' 51) (by simp [tokens]) rfl (by decide)
    obtain rfl : 'z' = lower := Option.some.inj symbol
    obtain rfl : (⟨⟨25, by decide⟩, false⟩ : Literal) = literal' := Option.some.inj found'
    exact ⟨literal, found, congrArg Fin.val same, negated⟩
  · obtain ⟨front, back, divided, size, failed'⟩ := errors 'é' 6 failed
    -- The bytes in front of the character tell where the source is divided.
    have behind : Text.dropBytes? 6 source = some ('é' :: back) :=
      Text.dropBytes?_eq_some_iff.mpr ⟨front, divided, size⟩
    obtain rfl : ['A'] = back := (List.cons.inj (Option.some.inj behind)).2
    have before : ['!', 'B', '|', '|', 'Z', '|'] ++ ['é', 'A'] = front ++ ['é', 'A'] := divided
    obtain rfl := List.append_cancel_right before
    exact failed'

end BooleanLexer
