/-
# BooleanLexer.Proofs.Item.Words -- the tokens of a text without their places

A word is a token beside the source text that its span holds.  The words of a text do not
depend on where the text stands, so they follow from its characters alone (`words_nil`,
`words_cons_blank`, `words_cons`), and every span can be cut out of its source
(`spanned?_readAll`).

The words tell how tokenizing ends, up to the place of an error
(`mapError_character_tokenize`).
-/
import BooleanLexer.Proofs.Item.Shift

namespace BooleanLexer

set_option autoImplicit false

open Text (isBlank byteSize slice?)

namespace Item

/-- The source text that the span of an item holds; `none` if it is no part of the source. -/
def spanned? (source : Text) (item : Item) : Option Text :=
  slice? source item.span.start item.span.stop

theorem spanned?_shift_append (first second : Text) (item : Item) :
    (item.shift (byteSize first)).spanned? (first ++ second) = item.spanned? second :=
  Text.slice?_byteSize_add_append first second item.span.start item.span.stop

end Item

namespace Text

/-- The tokens of a text without its end, each beside what its span holds. -/
def words (text : Text) : List (Token × Option Text) :=
  (Item.stream 0 text).map fun item => (item.token, item.spanned? text)

/-- Words do not depend on what stands before them. -/
theorem map_stream_append (first second : Text) :
    ((Item.stream (byteSize first) second).map fun item =>
        (item.token, item.spanned? (first ++ second))) = words second := by
  have moved := Item.stream_add (byteSize first) 0 second
  rw [Nat.add_zero] at moved
  rw [moved, List.map_map, words]
  refine List.map_congr_left fun item _ => ?_
  rw [Function.comp_apply, Item.token_shift, Item.spanned?_shift_append]

@[simp] theorem words_nil : words [] = [] := by
  rw [words, Item.stream_nil, List.map_nil]

theorem words_cons_blank {c : Char} (blank : isBlank c = true) (rest : Text) :
    words (c :: rest) = words rest := by
  have size : 0 + c.utf8Size = byteSize [c] := by simp
  rw [words, Item.stream_cons_blank 0 blank, size]
  exact map_stream_append [c] rest

theorem words_cons {c : Char} (solid : isBlank c = false) (rest : Text) :
    words (c :: rest) =
      (Token.leading c, some (Lexeme.written c rest)) :: words (Lexeme.after c rest) := by
  have divided := Lexeme.written_append_after c rest
  have later := map_stream_append (Lexeme.written c rest) (Lexeme.after c rest)
  rw [divided] at later
  have held : slice? (c :: rest) 0 (byteSize (Lexeme.written c rest)) =
      some (Lexeme.written c rest) := by
    rw [← divided]
    exact slice?_zero_byteSize_append _ _
  rw [words, Item.stream_cons 0 solid, Nat.zero_add, List.map_cons, later, Item.spanned?, held]

/-- Blanks in front of a text make no difference to its words. -/
theorem words_append_of_blank {gap : Text} (blank : ∀ b ∈ gap, isBlank b = true) (rest : Text) :
    words (gap ++ rest) = words rest := by
  induction gap with
  | nil => rfl
  | cons b gap ih =>
      rw [List.cons_append, words_cons_blank (blank b List.mem_cons_self),
        ih fun d mem => blank d (List.mem_cons_of_mem b mem)]

/-- Every word has been cut out of its text. -/
theorem exists_map_snd_words (text : Text) :
    ∃ parts : List Text, (words text).map Prod.snd = parts.map some := by
  induction text using Text.reading_induction with
  | nil => exact ⟨[], by rw [words_nil]; rfl⟩
  | blank c rest blank ih =>
      rw [words_cons_blank blank]
      exact ih
  | lexeme c rest solid ih =>
      obtain ⟨parts, same⟩ := ih
      exact ⟨Lexeme.written c rest :: parts, by rw [words_cons solid, List.map_cons, same]; rfl⟩

/-- The tokens of a text without its end. -/
def tokens (text : Text) : List Token := (words text).map Prod.fst

theorem tokens_eq (text : Text) : tokens text = (Item.stream 0 text).map Item.token := by
  rw [tokens, words, List.map_map]
  rfl

@[simp] theorem tokens_nil : tokens [] = [] := by rw [tokens, words_nil, List.map_nil]

theorem tokens_cons_blank {c : Char} (blank : isBlank c = true) (rest : Text) :
    tokens (c :: rest) = tokens rest := by
  rw [tokens, words_cons_blank blank, tokens]

theorem tokens_cons {c : Char} (solid : isBlank c = false) (rest : Text) :
    tokens (c :: rest) = Token.leading c :: tokens (Lexeme.after c rest) := by
  rw [tokens, words_cons solid, List.map_cons, tokens]

theorem exists_of_mem_tokens {text : Text} {token : Token} (mem : token ∈ tokens text) :
    ∃ c, isBlank c = false ∧ token = .leading c := by
  rw [tokens_eq] at mem
  obtain ⟨item, found, rfl⟩ := List.mem_map.mp mem
  obtain ⟨before, c, rest, -, solid, rfl⟩ := Item.exists_of_mem_stream found
  exact ⟨c, solid, rfl⟩

end Text

namespace Item

/-- Every span can be cut out of its source, that of the end as an empty text. -/
theorem map_spanned?_readAll (source : Text) :
    (readAll 0 source).map (spanned? source) =
      (Text.words source).map Prod.snd ++ [some []] := by
  have whole := Text.slice?_byteSize_add_append source [] 0 0
  rw [List.append_nil, Nat.add_zero] at whole
  have empty : (atEnd (byteSize source)).spanned? source = some [] := whole
  rw [readAll_eq_stream_append, Nat.zero_add, List.map_append, List.map_singleton, empty,
    Text.words, List.map_map]
  rfl

theorem map_token_readAll (source : Text) :
    (readAll 0 source).map token = Text.tokens source ++ [.finish] := by
  rw [readAll_eq_stream_append, List.map_append, Text.tokens_eq]
  rfl

end Item

/-! ## Tokenizing -/

namespace Token

/-- The character of a token that stands for an error. -/
def unexpected? (token : Token) : Option Char :=
  if token.kind = .unknown then token.symbol else none

end Token

theorem map_character_error? (item : Item) :
    item.error?.map Unexpected.character = item.token.unexpected? := by
  unfold Item.error? Token.unexpected?
  split
  · next unknown symbol => rw [if_pos unknown, symbol, Option.map_some]
  · next no_error =>
      split
      · next unknown =>
          cases symbol : item.token.symbol with
          | none => rfl
          | some c => exact absurd symbol (no_error c unknown)
      · rfl

theorem map_character_findSome?_error? (items : List Item) :
    (items.findSome? Item.error?).map Unexpected.character =
      (items.map Item.token).findSome? Token.unexpected? := by
  induction items with
  | nil => rfl
  | cons item items ih =>
      have here := map_character_error? item
      rw [List.map_cons, List.findSome?_cons, List.findSome?_cons, ← here, ← ih]
      cases item.error? <;> rfl

/-- How tokenizing ends, but for the place of an error, is told by the tokens alone. -/
theorem mapError_character_tokenize (source : Text) :
    (tokenize source).mapError Unexpected.character =
      match (Text.tokens source).findSome? Token.unexpected? with
      | some c => .error c
      | none => .ok (Text.tokens source ++ [.finish]) := by
  rw [tokenize_eq, Text.tokens_eq, ← map_character_findSome?_error?]
  cases (Item.stream 0 source).findSome? Item.error? <;> rfl

end BooleanLexer
