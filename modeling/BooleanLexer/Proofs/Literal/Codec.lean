/-
# BooleanLexer.Proofs.Literal.Codec -- letters, indices and literals in a whole source

A literal is written with its letter and nothing else, and a letter is a lexeme by itself
(`Lexeme.after_letter`).  So the letters of a text are those of its literals, whatever stands
between them (`flatMap_display_tokens`), and literals need nothing in between to be read back
(`tokenize_flatMap_display`).

On the way no token gets the literal of another one: the token of a letter has the index and the
sign of the literal that the letter spells, and any other token has neither literal nor index
(`literals_correspond_to_letters`).
-/
import BooleanLexer.Proofs.Item.Spellings
import BooleanLexer.Proofs.Literal.Letters
import BooleanLexer.Proofs.Token.Concatenation

namespace BooleanLexer

set_option autoImplicit false

open Text (IsLetter isBlank marks)

/-! ## Letters as lexemes -/

theorem Text.not_mem_marks_of_isLetter {c : Char} (letter : IsLetter c) : c ∉ marks := by
  have table : marks.all (fun mark => ¬ IsLetter mark) = true := by decide
  intro mark
  exact of_decide_eq_true (List.all_eq_true.mp table c mark) letter

/-- A letter is a lexeme by itself. -/
theorem Lexeme.after_letter {c : Char} (letter : IsLetter c) (rest : Text) :
    written c rest = [c] ∧ after c rest = rest := by
  have single := written_of_not_mem_marks (Text.not_mem_marks_of_isLetter letter) rest
  have divided := written_append_after c rest
  rw [single] at divided
  exact ⟨single, (List.cons.inj divided).2⟩

theorem Text.tokens_cons_letter {c : Char} (letter : IsLetter c) (rest : Text) :
    tokens (c :: rest) = Token.leading c :: tokens rest := by
  rw [tokens_cons (not_isBlank_of_isLetter letter), (Lexeme.after_letter letter rest).2]

namespace Literal

/-- An uppercase letter spells a negation. -/
theorem negated_iff (literal : Literal) :
    literal.negated = true ↔ 'A' ≤ literal.letter ∧ literal.letter ≤ 'Z' := by
  have table : ∀ (var : Fin letterCount) (negated : Bool), negated = true ↔
      'A' ≤ letter ⟨var, negated⟩ ∧ letter ⟨var, negated⟩ ≤ 'Z' := by decide
  exact table literal.var literal.negated

theorem ofVar?_var (literal : Literal) :
    ofVar? literal.var literal.negated = some literal := by
  rw [ofVar?, dif_pos literal.var.isLt]

theorem literal?_leading_eq_none {c : Char} (other : ¬ IsLetter c) :
    (Token.leading c).literal? = none := by
  have no_ident : (Token.leading c).kind ≠ .ident :=
    mt (Lexeme.kind_leading_eq_ident_iff c).mp other
  unfold Token.literal?
  split
  · next ident => exact absurd ident no_ident
  · rfl

/-! ## The literals of a text -/

/-- A token is written with the letter of its literal and no other one. -/
theorem filter_written (c : Char) (rest : Text) :
    (Lexeme.written c rest).filter (fun d => IsLetter d) =
      (Token.leading c).literal?.toList.flatMap display := by
  by_cases letter : IsLetter c
  · obtain ⟨literal, rfl⟩ := exists_letter_eq letter
    rw [(Lexeme.after_letter letter rest).1, literal?_leading_letter]
    simp [letter, display]
  · rw [literal?_leading_eq_none letter]
    unfold Lexeme.written
    split <;> simp [letter]

/-- The literals of a text are written with its letters, in their order. -/
theorem flatMap_display_tokens (text : Text) :
    ((Text.tokens text).filterMap Token.literal?).flatMap display =
      text.filter fun c => IsLetter c := by
  induction text using Text.reading_induction with
  | nil => rw [Text.tokens_nil]; rfl
  | blank c rest blank ih =>
      have other : ¬ IsLetter c := by
        intro letter
        rw [Text.not_isBlank_of_isLetter letter] at blank
        cases blank
      rw [Text.tokens_cons_blank blank, ih, List.filter_cons_of_neg (by simpa using other)]
  | lexeme c rest solid ih =>
      have divided := Lexeme.written_append_after c rest
      rw [Text.tokens_cons solid, ← divided, List.filter_append, filter_written, ← ih]
      cases found : (Token.leading c).literal? with
      | none => rw [List.filterMap_cons_none found]; rfl
      | some literal => rw [List.filterMap_cons_some found]; rfl

/-- The end of a source adds no literal. -/
theorem filterMap_literal?_items (source : Text) :
    ((Scan.Listing.ofText source).items.filterMap fun item => item.token.literal?) =
      (Text.tokens source).filterMap Token.literal? := by
  have nothing : [Token.finish].filterMap Token.literal? = [] := rfl
  change (Scan.Listing.ofText source).items.filterMap (Token.literal? ∘ Item.token) = _
  rw [← List.filterMap_map, Scan.map_token_items, List.filterMap_append, nothing,
    List.append_nil]

/-- Literals in a row are read as their letters. -/
theorem tokens_flatMap_display (literals : List Literal) :
    Text.tokens (literals.flatMap display) =
      literals.map fun literal => Token.leading literal.letter := by
  induction literals with
  | nil => exact Text.tokens_nil
  | cons literal literals ih =>
      have row : (literal :: literals).flatMap display =
          literal.letter :: literals.flatMap display := rfl
      rw [row, Text.tokens_cons_letter literal.isLetter_letter, ih, List.map_cons]

theorem tokenize_flatMap_display (literals : List Literal) :
    tokenize (literals.flatMap display) =
      .ok ((literals.map fun literal => Token.leading literal.letter) ++ [.finish]) := by
  refine tokenize_eq_ok_iff_tokens.mpr ⟨Text.unexpected_eq_nil fun c mem => ?_, ?_⟩
  · obtain ⟨literal, -, spelled⟩ := List.mem_flatMap.mp mem
    rw [List.mem_singleton.mp spelled]
    exact .inr (.inl literal.isLetter_letter)
  · rw [tokens_flatMap_display]

/-! ## The tokens of a scan -/

section

variable {cursor : Cursor} {item : Item}

/-- A letter that is scanned spells a literal, and its token is the one of that literal. -/
theorem exists_of_mem_readAll (mem : item ∈ cursor.readAll.1)
    (ident : item.token.kind = .ident) :
    ∃ literal : Literal, item.spanned? cursor.source = some [literal.letter] ∧
      item.token = Token.leading literal.letter := by
  have unfinished : item.token.kind ≠ .finish := by simp [ident]
  obtain ⟨c, rest, -, token, covered⟩ := Cursor.exists_of_mem_readAll mem unfinished
  rw [token] at ident
  have letter : IsLetter c := (Lexeme.kind_leading_eq_ident_iff c).mp ident
  obtain ⟨literal, rfl⟩ := exists_letter_eq letter
  rw [(Lexeme.after_letter letter rest).1] at covered
  exact ⟨literal, covered, token⟩

/-- Any other token has neither literal nor index. -/
theorem none_of_mem_readAll (mem : item ∈ cursor.readAll.1)
    (other : item.token.kind ≠ .ident) : item.token.literal? = none ∧ item.token.index = 0 := by
  have mem : item ∈ Item.readAll cursor.position cursor.rest := mem
  rw [Item.readAll_eq_stream_append] at mem
  rcases List.mem_append.mp mem with mem | mem
  · obtain ⟨before, c, rest, -, -, rfl⟩ := Item.exists_of_mem_stream mem
    have no_letter : ¬ IsLetter c := mt (Lexeme.kind_leading_eq_ident_iff c).mpr other
    exact ⟨literal?_leading_eq_none no_letter, Lexeme.index_leading_eq_zero no_letter⟩
  · rw [List.mem_singleton.mp mem]
    exact ⟨rfl, rfl⟩

end

/-- **Literals correspond to letters, one to one and in order.**  The literals of a source are
written with its letters.  The token of a letter has the literal that the letter spells, with the
same index, and is made again from the two; no other token has a literal or an index.  Any
literals that are written in a row are read back, and each literal is given by its variable and
sign and by its index. -/
theorem literals_correspond_to_letters :
    (∀ source : Text,
      ((Scan.Listing.ofText source).items.filterMap fun item => item.token.literal?).flatMap
          display =
        source.filter fun c => IsLetter c) ∧
    (∀ cursor : Cursor, ∀ item ∈ cursor.readAll.1,
      (item.token.kind = .ident → ∃ literal letter,
        item.spanned? cursor.source = some [letter] ∧ item.token.symbol = some letter ∧
        item.token.literal? = some literal ∧ literal.letter = letter ∧
        literal.index = item.token.index ∧
        (literal.negated = true ↔ 'A' ≤ letter ∧ letter ≤ 'Z') ∧
        Token.ident literal.letter literal.index = item.token) ∧
      (item.token.kind ≠ .ident → item.token.literal? = none ∧ item.token.index = 0)) ∧
    (∀ literals : List Literal, ∃ tokens,
      tokenize (literals.flatMap display) = .ok (tokens ++ [.finish]) ∧
      (∀ token ∈ tokens, token.kind = .ident) ∧
      tokens.map Token.literal? = literals.map some) ∧
    ∀ literal : Literal, ofVar? literal.var literal.negated = some literal ∧
      ofIndex? literal.index = some literal := by
  refine ⟨fun source => ?_, fun cursor item mem => ⟨fun ident => ?_, none_of_mem_readAll mem⟩,
    fun literals => ⟨_, tokenize_flatMap_display literals, ?_, ?_⟩,
    fun literal => ⟨ofVar?_var literal, ofIndex?_index literal⟩⟩
  · rw [filterMap_literal?_items, flatMap_display_tokens]
  · obtain ⟨literal, covered, token⟩ := exists_of_mem_readAll mem ident
    refine ⟨literal, literal.letter, covered, ?_, ?_, rfl, ?_, literal.negated_iff, ?_⟩
    · rw [token, leading_letter]
      rfl
    · rw [token, literal?_leading_letter]
    · rw [token, leading_letter]
      rfl
    · rw [token, leading_letter]
  · intro token mem
    obtain ⟨literal, -, rfl⟩ := List.mem_map.mp mem
    rw [leading_letter]
    rfl
  · rw [List.map_map]
    exact List.map_congr_left fun literal _ => literal?_leading_letter literal

/-- An uppercase letter behind an unexpected character and a blank, and three literals in a row. -/
theorem letters_behind_wide_character :
    let cursor := Cursor.new ['€', ' ', 'B', '|', 'z']
    let letter : Item := ⟨.ident 'B' 27, ⟨4, 5⟩⟩
    let bar : Item := ⟨.plain .or '|', ⟨5, 6⟩⟩
    (letter ∈ cursor.readAll.1 ∧ letter.spanned? cursor.source = some ['B'] ∧
      ∃ literal, letter.token.literal? = some literal ∧ literal.index = 27 ∧
        literal.letter = 'B' ∧ literal.negated = true) ∧
      (bar ∈ cursor.readAll.1 ∧ bar.token.literal? = none) ∧
      ∃ tokens, tokenize ['B', 'b', 'Z'] = .ok (tokens ++ [.finish]) ∧
        tokens.map Token.literal? = [ofVar? 1 true, ofIndex? 1, ofIndex? 51] := by
  intro cursor letter bar
  obtain ⟨-, scanned, written, -⟩ := literals_correspond_to_letters
  have read : cursor.readAll.1 =
      [⟨.plain .unknown '€', ⟨0, 3⟩⟩, letter, bar, ⟨.ident 'z' 25, ⟨6, 7⟩⟩,
        ⟨.finish, ⟨7, 7⟩⟩] := by
    decide +kernel
  have letter_mem : letter ∈ cursor.readAll.1 := by simp [read]
  have bar_mem : bar ∈ cursor.readAll.1 := by simp [read]
  refine ⟨⟨letter_mem, ?_⟩, ⟨bar_mem, ((scanned cursor bar bar_mem).2 (by decide)).1⟩, ?_⟩
  · obtain ⟨literal, c, covered, symbol, found, same, index, sign, -⟩ :=
      (scanned cursor letter letter_mem).1 rfl
    obtain rfl : 'B' = c := Option.some.inj symbol
    exact ⟨covered, literal, found, index, same, sign.mpr (by decide)⟩
  · obtain ⟨tokens, tokenized, -, literals⟩ :=
      written [⟨⟨1, by decide⟩, true⟩, ⟨⟨1, by decide⟩, false⟩, ⟨⟨25, by decide⟩, true⟩]
    exact ⟨tokens, tokenized, literals⟩

end Literal

end BooleanLexer
