/-
# BooleanLexer.Proofs.Token.Canonical -- a normal form without separators

Each token has one canonical spelling: a letter the one that it is, any other token that of its
kind.  A canonical spelling is `Closed`: no text behind it makes it longer, as `||` and `&&` are
as long as an operator gets and the others are never doubled.  So the canonical spellings of
tokens can be written one behind the other with nothing in between, and they are read as the
same tokens, but for the characters that they start with (`tokens_flatMap_canonical`).

The text of canonical spellings is therefore a normal form of sources that tokenize
(`canonicalText_normal_form`): it tells the kinds and indices of the tokens, and it is its own
normal form.
-/
import BooleanLexer.Proofs.Item.Grammar
import BooleanLexer.Proofs.Item.Words
import BooleanLexer.Proofs.Literal.Letters

namespace BooleanLexer

set_option autoImplicit false

open Text (isBlank IsLetter marks)

/-! ## Spellings that nothing makes longer -/

/-- Whether `c` and what follows it are one lexeme, whatever text stands behind. -/
def Lexeme.Closed (c : Char) (tail : Text) : Prop :=
  ∀ rest, written c (tail ++ rest) = c :: tail ∧ after c (tail ++ rest) = rest

theorem Lexeme.closed_single {c : Char} (bar : c ≠ '|') (ampersand : c ≠ '&') : Closed c [] := by
  intro rest
  simp [written, after, isDoubled, bar, ampersand]

theorem Lexeme.closed_double {c : Char} (twice : c = '|' ∨ c = '&') : Closed c [c] := by
  intro rest
  have doubled := isDoubled_cons_self twice rest
  rw [List.singleton_append, written, after, if_pos doubled, if_pos doubled]
  exact ⟨rfl, rfl⟩

namespace Token

/-- A token in its canonical spelling: a letter by its literal, any other by its kind. -/
def canonical (token : Token) : Text :=
  match token.kind with
  | .ident => token.literal?.elim [] Literal.display
  | kind => kind.spelling

/-- What a token stands for, whatever it is written with: its kind and its index. -/
def meaning (token : Token) : Kind × Nat := (token.kind, token.index)

/-- The token that is read from the canonical spelling of a token. -/
def recast (token : Token) : Token := { token with symbol := token.canonical.head? }

@[simp] theorem meaning_recast (token : Token) : token.recast.meaning = token.meaning := rfl

theorem canonical_congr {token token' : Token} (same : token.meaning = token'.meaning) :
    token.canonical = token'.canonical := by
  cases token
  cases token'
  cases same
  rfl

/-- A token that is read from an expected character. -/
def Regular (token : Token) : Prop :=
  ∃ c, isBlank c = false ∧ token = leading c ∧ token.kind ≠ .unknown

theorem Regular.kind_ne_finish {token : Token} (regular : token.Regular) :
    token.kind ≠ .finish := by
  obtain ⟨c, -, rfl, -⟩ := regular
  exact Lexeme.kind_leading_ne_finish c

/-- What a regular token is: a letter, or the token of an operator or a bracket. -/
theorem Regular.cases {token : Token} (regular : token.Regular) :
    (∃ literal : Literal, token = leading literal.letter) ∨
      ∃ kind c, (kind, [c]) ∈ operators ∧ token = plain kind c := by
  obtain ⟨c, -, rfl, known⟩ := regular
  by_cases letter : IsLetter c
  · obtain ⟨literal, rfl⟩ := Literal.exists_letter_eq letter
    exact .inl ⟨literal, rfl⟩
  by_cases mark : c ∈ marks
  · obtain ⟨kind, operator⟩ := exists_operator_of_mem_marks mark
    exact .inr ⟨kind, c, operator, leading_of_operator operator⟩
  · exact absurd ((Lexeme.kind_leading_eq_unknown_iff c).mpr ⟨letter, mark⟩) known

/-- How the kind of an operator or a bracket is spelled. -/
theorem exists_spelling_of_operator {kind : Kind} {text : Text}
    (operator : (kind, text) ∈ operators) :
    kind ≠ .ident ∧ kind ≠ .unknown ∧ ∃ d tail, kind.spelling = d :: tail ∧ isBlank d = false ∧
      leading d = plain kind d ∧ Lexeme.Closed d tail := by
  have table : operators.all (fun entry => entry.1 ≠ .finish ∧ entry.1 ≠ .ident ∧
      entry.1 ≠ .unknown) = true := by decide
  obtain ⟨no_finish, no_ident, known⟩ := of_decide_eq_true (List.all_eq_true.mp table _ operator)
  refine ⟨no_ident, known, ?_⟩
  cases kind with
  | unknown => exact absurd rfl known
  | finish => exact absurd rfl no_finish
  | ident => exact absurd rfl no_ident
  | or => exact ⟨'|', ['|'], rfl, rfl, by decide, Lexeme.closed_double (.inl rfl)⟩
  | xor => exact ⟨'^', [], rfl, rfl, by decide, Lexeme.closed_single (by decide) (by decide)⟩
  | and => exact ⟨'&', ['&'], rfl, rfl, by decide, Lexeme.closed_double (.inr rfl)⟩
  | not => exact ⟨'!', [], rfl, rfl, by decide, Lexeme.closed_single (by decide) (by decide)⟩
  | opening => exact ⟨'(', [], rfl, rfl, by decide, Lexeme.closed_single (by decide) (by decide)⟩
  | closing => exact ⟨')', [], rfl, rfl, by decide, Lexeme.closed_single (by decide) (by decide)⟩

theorem canonical_leading_letter (literal : Literal) :
    (leading literal.letter).canonical = [literal.letter] := by
  have kind : (leading literal.letter).kind = .ident := by
    rw [Literal.leading_letter]
    rfl
  rw [canonical, kind, Literal.literal?_leading_letter]
  rfl

theorem canonical_of_kind_ne {token : Token} (no_ident : token.kind ≠ .ident) :
    token.canonical = token.kind.spelling := by
  unfold canonical
  split
  · next ident => exact absurd ident no_ident
  · rfl

/-- The canonical spelling of a regular token is closed, and it is read as that token but for
the character that it starts with. -/
theorem Regular.exists_canonical_eq_cons {token : Token} (regular : token.Regular) :
    ∃ c tail, token.canonical = c :: tail ∧ isBlank c = false ∧ token.recast = leading c ∧
      Lexeme.Closed c tail := by
  rcases regular.cases with ⟨literal, rfl⟩ | ⟨kind, c, operator, rfl⟩
  · have letter := literal.isLetter_letter
    have spelling := canonical_leading_letter literal
    refine ⟨literal.letter, [], spelling, Text.not_isBlank_of_isLetter letter, ?_, ?_⟩
    · rw [recast, spelling, List.head?_cons, Literal.leading_letter]
      rfl
    · apply Lexeme.closed_single
      · intro bar
        rw [bar] at letter
        exact absurd letter (by decide)
      · intro ampersand
        rw [ampersand] at letter
        exact absurd letter (by decide)
  · obtain ⟨no_ident, -, d, tail, spelled, solid, leading_eq, closed⟩ :=
      exists_spelling_of_operator operator
    have spelling : (plain kind c).canonical = d :: tail :=
      (canonical_of_kind_ne no_ident).trans spelled
    refine ⟨d, tail, spelling, solid, ?_, closed⟩
    rw [recast, spelling, leading_eq]
    rfl

theorem Regular.exists_literal? {token : Token} (regular : token.Regular)
    (ident : token.kind = .ident) : ∃ literal, token.literal? = some literal := by
  rcases regular.cases with ⟨literal, rfl⟩ | ⟨kind, c, operator, rfl⟩
  · exact ⟨literal, Literal.literal?_leading_letter literal⟩
  · exact absurd ident (exists_spelling_of_operator operator).1

theorem Regular.recast {token : Token} (regular : token.Regular) : token.recast.Regular := by
  obtain ⟨c, tail, -, solid, same, -⟩ := regular.exists_canonical_eq_cons
  obtain ⟨_, -, -, known⟩ := regular
  exact ⟨c, solid, same, known⟩

end Token

open Token (Regular canonical meaning recast)

/-! ## Reading canonical spellings -/

/-- Canonical spellings in a row are read as what they spell. -/
theorem tokens_flatMap_canonical {tokens : List Token} (regular : ∀ token ∈ tokens, token.Regular) :
    Text.tokens (tokens.flatMap canonical) = tokens.map recast := by
  induction tokens with
  | nil => exact Text.tokens_nil
  | cons token tokens ih =>
      obtain ⟨here, later⟩ := List.forall_mem_cons.mp regular
      obtain ⟨c, tail, spelling, solid, same, closed⟩ := here.exists_canonical_eq_cons
      rw [List.flatMap_cons, spelling, List.cons_append, Text.tokens_cons solid,
        (closed _).2, ih later, List.map_cons, same]

theorem findSome?_unexpected?_of_regular {tokens : List Token}
    (regular : ∀ token ∈ tokens, token.Regular) : tokens.findSome? Token.unexpected? = none := by
  refine List.findSome?_eq_none_iff.mpr fun token mem => ?_
  obtain ⟨_, -, -, known⟩ := regular token mem
  exact if_neg known

theorem tokenize_of_regular {source : Text}
    (regular : ∀ token ∈ Text.tokens source, token.Regular) :
    tokenize source = .ok (Text.tokens source ++ [.finish]) := by
  have result := mapError_character_tokenize source
  rw [findSome?_unexpected?_of_regular regular] at result
  cases tokenized : tokenize source with
  | error error =>
      rw [tokenized] at result
      cases result
  | ok tokens =>
      rw [tokenized] at result
      cases result
      rfl

/-- A source that tokenizes has regular tokens, and the end behind them. -/
theorem regular_of_tokenize {source : Text} {tokens : List Token}
    (tokenized : tokenize source = .ok tokens) :
    tokens = Text.tokens source ++ [.finish] ∧
      ∀ token ∈ Text.tokens source, token.Regular := by
  have result := mapError_character_tokenize source
  rw [tokenized] at result
  cases found : (Text.tokens source).findSome? Token.unexpected? with
  | some c =>
      rw [found] at result
      cases result
  | none =>
      rw [found] at result
      refine ⟨Except.ok.inj result, fun token mem => ?_⟩
      have clean := List.findSome?_eq_none_iff.mp found token mem
      obtain ⟨c, solid, rfl⟩ := Text.exists_of_mem_tokens mem
      refine ⟨c, solid, rfl, fun unknown => ?_⟩
      rw [Token.unexpected?, if_pos unknown, Lexeme.symbol_leading] at clean
      cases clean

/-- The canonical spellings of tokens with nothing in between; the end of a text has none. -/
def canonicalText (tokens : List Token) : Text :=
  (tokens.filter fun token => token.kind ≠ .finish).flatMap canonical

theorem canonicalText_append_finish {tokens : List Token}
    (regular : ∀ token ∈ tokens, token.Regular) :
    canonicalText (tokens ++ [.finish]) = tokens.flatMap canonical := by
  have all : tokens.filter (fun token => token.kind ≠ .finish) = tokens :=
    List.filter_eq_self.mpr fun token mem => by simpa using (regular token mem).kind_ne_finish
  rw [canonicalText, List.filter_append, all]
  simp [Token.finish]

/-- A canonical text is told by the kinds and indices of its tokens. -/
theorem canonicalText_congr {tokens tokens' : List Token}
    (same : tokens.map meaning = tokens'.map meaning) :
    canonicalText tokens = canonicalText tokens' := by
  induction tokens generalizing tokens' with
  | nil =>
      cases tokens' with
      | nil => rfl
      | cons token' tokens' => cases same
  | cons token tokens ih =>
      cases tokens' with
      | nil => cases same
      | cons token' tokens' =>
          obtain ⟨here, later⟩ := List.cons.inj same
          have kind : token.kind = token'.kind := congrArg Prod.fst here
          have rest : canonicalText tokens = canonicalText tokens' := ih later
          unfold canonicalText at rest ⊢
          rw [List.filter_cons, List.filter_cons, ← kind]
          split
          · rw [List.flatMap_cons, List.flatMap_cons, Token.canonical_congr here, rest]
          · exact rest

/-- **Canonical spelling is a normal form, and it needs no separators.**  The canonical text of a
source that tokenizes is read as tokens of the same kinds and indices, each with the first
character of its canonical spelling, and is its own canonical text.  Two sources have the same
one exactly if their tokens have the same kinds and indices. -/
theorem canonicalText_normal_form {source : Text} {tokens : List Token}
    (tokenized : tokenize source = .ok tokens) :
    (∀ token ∈ tokens, token.kind = .ident → ∃ literal, token.literal? = some literal) ∧
    (∃ tokens', tokenize (canonicalText tokens) = .ok tokens' ∧
      tokens'.map meaning = tokens.map meaning ∧
      (∀ token ∈ tokens', token.kind ≠ .finish →
        ∃ c tail, token.canonical = c :: tail ∧ token.symbol = some c) ∧
      canonicalText tokens' = canonicalText tokens) ∧
    ∀ source' tokens', tokenize source' = .ok tokens' →
      (canonicalText tokens = canonicalText tokens' ↔
        tokens.map meaning = tokens'.map meaning) := by
  obtain ⟨rfl, regular⟩ := regular_of_tokenize tokenized
  have read := tokens_flatMap_canonical regular
  have text := canonicalText_append_finish regular
  have meanings (tokens : List Token) :
      (tokens.map recast ++ [Token.finish]).map meaning =
        (tokens ++ [Token.finish]).map meaning := by
    rw [List.map_append, List.map_append, List.map_map]
    rfl
  refine ⟨fun token mem ident => ?_, ⟨(Text.tokens source).map recast ++ [.finish], ?_,
    meanings _, fun token mem no_finish => ?_, canonicalText_congr (meanings _)⟩, ?_⟩
  · rcases List.mem_append.mp mem with mem | mem
    · exact (regular token mem).exists_literal? ident
    · rw [List.mem_singleton.mp mem] at ident
      cases ident
  · rw [text, ← read]
    apply tokenize_of_regular
    rw [read]
    exact List.forall_mem_map.mpr fun token mem => (regular token mem).recast
  · rcases List.mem_append.mp mem with mem | mem
    · obtain ⟨read, read_mem, rfl⟩ := List.mem_map.mp mem
      obtain ⟨c, tail, spelling, -⟩ := (regular read read_mem).exists_canonical_eq_cons
      refine ⟨c, tail, (Token.canonical_congr read.meaning_recast).trans spelling, ?_⟩
      rw [recast, spelling, List.head?_cons]
    · exact absurd (congrArg Token.kind (List.mem_singleton.mp mem)) no_finish
  · intro source' tokens' tokenized'
    obtain ⟨rfl, regular'⟩ := regular_of_tokenize tokenized'
    constructor
    · intro same
      rw [text, canonicalText_append_finish regular'] at same
      have recast_eq : (Text.tokens source).map recast = (Text.tokens source').map recast := by
        rw [← read, same, tokens_flatMap_canonical regular']
      rw [← meanings, recast_eq, meanings]
    · exact canonicalText_congr

/-- A space keeps two `|` apart; their canonical spellings need none. -/
theorem canonicalText_of_parted_bars :
    let source : Text := ['|', ' ', '|', '*', 'B']
    let tokens : List Token :=
      [.plain .or '|', .plain .or '|', .plain .and '*', .ident 'B' 27, .finish]
    tokenize source = .ok tokens ∧
      canonicalText tokens = ['|', '|', '|', '|', '&', '&', 'B'] ∧
      ∃ tokens', tokenize (canonicalText tokens) = .ok tokens' ∧
        tokens'.map meaning = tokens.map meaning ∧
        canonicalText tokens' = canonicalText tokens := by
  intro source tokens
  have tokenized : tokenize source = .ok tokens := by
    rw [tokenize, tokenizeItems, Item.readUntil, if_neg (by decide), Item.readUntil,
      if_neg (by decide), Item.readUntil, if_neg (by decide), Item.readUntil,
      if_neg (by decide), Item.readUntil, if_pos (by decide)]
    rfl
  obtain ⟨-, ⟨tokens', read, same, -, again⟩, -⟩ := canonicalText_normal_form tokenized
  exact ⟨tokenized, by decide, tokens', read, same, again⟩

end BooleanLexer
