/-
# BooleanLexer.Proofs.Token.Concatenation -- tokenizing two texts as one

Tokenizing tells no spans, so less is seen of a cut than in the stream of items.  A cut inside
a doubled operator moves the pairs of the whole run behind it, but it makes one token fewer only
if the run in front of the cut and the run behind it are both of odd length (`OddRunsMeet`).
With an even run behind it the operators are paired anew, into as many tokens as before
(`tokens_tail`), and these are all the same.

Errors do not take part in this: which characters are unexpected is told character by
character, so the first one stays the first (`tokenize_append`).
-/
import BooleanLexer.Proofs.Item.Concatenation
import BooleanLexer.Proofs.Item.Words
import BooleanLexer.Proofs.Scan.Agreement

namespace BooleanLexer

set_option autoImplicit false

open Text (byteSize isBlank unexpected tokens)

/-- Whether a run of `c` of odd length ends the first text and one of odd length begins the
second. -/
def OddRunsMeet (c : Char) (first second : Text) : Prop :=
  Odd (first.rtakeWhile (· = c)).length ∧ Odd (second.takeWhile (· = c)).length

instance (c : Char) (first second : Text) : Decidable (OddRunsMeet c first second) :=
  inferInstanceAs (Decidable (_ ∧ _))

/-- A cut between two runs of odd length is inside a doubled operator. -/
theorem OddRunsMeet.joins {c : Char} {first second : Text} (meet : OddRunsMeet c first second) :
    Joins c first second := by
  obtain ⟨odd, odd'⟩ := meet
  refine ⟨odd, ?_⟩
  cases second with
  | nil => simp at odd'
  | cons d second =>
      by_cases same : d = c
      · rw [List.head?_cons, same]
      · rw [List.takeWhile_cons_of_neg (by simpa using same)] at odd'
        exact absurd odd' (by decide)

/-- In front of an operator that is doubled across a cut, the text ends with an even run of it,
so that nothing is doubled across the cut in front of that. -/
theorem Joins.exists_append {c : Char} {first second : Text} (joins : Joins c first second) :
    ∃ front, first = front ++ [c] ∧
      ∀ mark rest, ¬ Joins mark front (c :: rest) := by
  obtain ⟨front, rfl⟩ := List.getLast?_eq_some_iff.mp joins.getLast?_eq
  refine ⟨front, rfl, ?_⟩
  rintro mark rest ⟨odd_front, head⟩
  obtain rfl : c = mark := by simpa using head
  have odd := joins.1
  rw [rtakeWhile_append_of_pos (by simp), List.length_append, List.length_singleton,
    Nat.odd_add_one] at odd
  exact odd odd_front

namespace Text

/-! ## The tokens of two texts -/

/-- Two operators in a row that may be doubled are one token. -/
theorem tokens_cons_cons {c : Char} (doubles : c = '|' ∨ c = '&') (rest : Text) :
    tokens (c :: c :: rest) = Token.leading c :: tokens rest := by
  rw [tokens_cons (solid_of_doubles doubles), Lexeme.after,
    if_pos (Lexeme.isDoubled_cons_self doubles rest), List.tail_cons]

/-- An operator that nothing doubles is a token by itself. -/
theorem tokens_cons_of_head?_ne {c : Char} (doubles : c = '|' ∨ c = '&') {rest : Text}
    (single : rest.head? ≠ some c) : tokens (c :: rest) = Token.leading c :: tokens rest := by
  have alone : Lexeme.isDoubled c rest = false := by simp [Lexeme.isDoubled, single]
  rw [tokens_cons (solid_of_doubles doubles), Lexeme.after, if_neg (by simp [alone])]

/-- Without its first operator, a run makes one token fewer if its length is odd, and as many
as before if it is even. -/
theorem tokens_tail {c : Char} (doubles : c = '|' ∨ c = '&') (rest : Text) :
    tokens rest =
      if Odd ((c :: rest).takeWhile (· = c)).length then (tokens (c :: rest)).tail
      else tokens (c :: rest) := by
  induction rest with
  | nil =>
      have single : ([] : Text).head? ≠ some c := nofun
      simp [tokens_cons_of_head?_ne doubles single]
  | cons d rest ih =>
      by_cases same : d = c
      · subst same
        -- One operator more in front changes the parity, and the pair takes it away again.
        have run : ((d :: d :: rest).takeWhile (· = d)).length =
            ((d :: rest).takeWhile (· = d)).length + 1 := by
          rw [List.takeWhile_cons_of_pos (by simp), List.length_cons]
        rw [tokens_cons_cons doubles]
        by_cases odd : Odd ((d :: rest).takeWhile (· = d)).length
        · have even : ¬ Odd ((d :: d :: rest).takeWhile (· = d)).length := by
            rw [run, Nat.odd_add_one]
            exact not_not.mpr odd
          rw [if_pos odd, tokens_cons (solid_of_doubles doubles), List.tail_cons] at ih
          rw [if_neg even, tokens_cons (solid_of_doubles doubles), ih]
        · have odd' : Odd ((d :: d :: rest).takeWhile (· = d)).length := by
            rw [run, Nat.odd_add_one]
            exact odd
          rw [if_neg odd] at ih
          rw [if_pos odd', List.tail_cons, ih]
      · have single : (d :: rest).head? ≠ some c := by simpa using same
        have run : ((c :: d :: rest).takeWhile (· = c)).length = 1 := by
          rw [List.takeWhile_cons_of_pos (by simp), List.takeWhile_cons_of_neg (by simpa using same),
            List.length_singleton]
        rw [tokens_cons_of_head?_ne doubles single, run, if_pos odd_one, List.tail_cons]

theorem tokens_append_of_not_joins {first second : Text}
    (apart : ¬ (Joins '|' first second ∨ Joins '&' first second)) :
    tokens (first ++ second) = tokens first ++ tokens second := by
  have streams := (Item.stream_append_iff 0 first second).mpr apart
  have moved := Item.stream_add (byteSize first) 0 second
  rw [tokens_eq, streams, List.map_append, Nat.zero_add, ← Nat.add_zero (byteSize first), moved,
    List.map_map, tokens_eq, tokens_eq]
  rfl

theorem tokens_append_of_joins {c : Char} (doubles : c = '|' ∨ c = '&') {first second : Text}
    (joins : Joins c first second) :
    tokens (first ++ second) = tokens first ++ tokens second.tail := by
  obtain ⟨front, rfl, apart⟩ := joins.exists_append
  obtain ⟨rest, rfl⟩ := List.head?_eq_some_iff.mp joins.2
  have apart (rest : Text) : ¬ (Joins '|' front (c :: rest) ∨ Joins '&' front (c :: rest)) :=
    not_or.mpr ⟨apart '|' rest, apart '&' rest⟩
  have single : ([] : Text).head? ≠ some c := nofun
  calc tokens (front ++ [c] ++ c :: rest)
      = tokens front ++ tokens (c :: c :: rest) := by
        rw [List.append_assoc, List.singleton_append, tokens_append_of_not_joins (apart _)]
    _ = tokens front ++ tokens [c] ++ tokens rest := by
        rw [tokens_cons_cons doubles, tokens_cons_of_head?_ne doubles single, tokens_nil,
          List.append_assoc, List.singleton_append]
    _ = tokens (front ++ [c]) ++ tokens rest := by rw [tokens_append_of_not_joins (apart _)]

/-- Where two runs of odd length meet, two texts in a row have one token fewer than both have
apart; otherwise the tokens follow each other. -/
theorem tokens_append (first second : Text) :
    tokens (first ++ second) =
      tokens first ++
        if OddRunsMeet '|' first second ∨ OddRunsMeet '&' first second then (tokens second).tail
        else tokens second := by
  by_cases joined : ∃ c, (c = '|' ∨ c = '&') ∧ Joins c first second
  · obtain ⟨c, doubles, joins⟩ := joined
    obtain ⟨odd, head⟩ := joins
    obtain ⟨rest, rfl⟩ := List.head?_eq_some_iff.mp head
    -- The run behind the cut is one of `c`, so no run of the other operator meets another there.
    have meets_iff : (OddRunsMeet '|' first (c :: rest) ∨ OddRunsMeet '&' first (c :: rest)) ↔
        Odd ((c :: rest).takeWhile (· = c)).length := by
      constructor
      · rintro (meet | meet)
        · obtain rfl : c = '|' := by simpa using meet.joins.2
          exact meet.2
        · obtain rfl : c = '&' := by simpa using meet.joins.2
          exact meet.2
      · intro odd'
        rcases doubles with rfl | rfl
        · exact .inl ⟨odd, odd'⟩
        · exact .inr ⟨odd, odd'⟩
    rw [tokens_append_of_joins doubles ⟨odd, head⟩, List.tail_cons, tokens_tail doubles rest]
    simp only [meets_iff]
  · have apart : ¬ (Joins '|' first second ∨ Joins '&' first second) := by
      rintro (joins | joins)
      · exact joined ⟨'|', .inl rfl, joins⟩
      · exact joined ⟨'&', .inr rfl, joins⟩
    have not_meet : ¬ (OddRunsMeet '|' first second ∨ OddRunsMeet '&' first second) :=
      fun meet => apart (meet.imp OddRunsMeet.joins OddRunsMeet.joins)
    rw [tokens_append_of_not_joins apart, if_neg not_meet]

/-! ## The errors of two texts -/

/-- The same text at another place has its unexpected characters there. -/
theorem unexpected_add (count position : Nat) (text : Text) :
    unexpected (count + position) text =
      (unexpected position text).map (Unexpected.shift count) := by
  induction text generalizing position with
  | nil => rfl
  | cons c rest ih =>
      have later := ih (position + c.utf8Size)
      rw [← Nat.add_assoc] at later
      by_cases expected : IsExpected c
      · rw [unexpected_cons_of_isExpected _ expected, unexpected_cons_of_isExpected _ expected,
          later]
      · rw [unexpected_cons_of_not_isExpected _ expected,
          unexpected_cons_of_not_isExpected _ expected, later]
        rfl

end Text

/-! ## Tokenizing -/

theorem Scan.map_token_items (source : Text) :
    (Listing.ofText source).items.map Item.token = tokens source ++ [.finish] :=
  Item.map_token_readAll source

theorem tokenize_eq_of_unexpected (source : Text) :
    tokenize source = match unexpected 0 source with
      | error :: _ => .error error
      | [] => .ok (tokens source ++ [.finish]) := by
  have whole := Scan.tokenize_eq_match source
  rw [Scan.map_token_items] at whole
  exact whole

theorem tokenize_eq_error_iff_head? {source : Text} {error : Unexpected} :
    tokenize source = .error error ↔ (unexpected 0 source).head? = some error := by
  rw [tokenize_eq_of_unexpected]
  cases unexpected 0 source <;> simp

theorem tokenize_eq_ok_iff_tokens {source : Text} {all : List Token} :
    tokenize source = .ok all ↔ unexpected 0 source = [] ∧ tokens source ++ [.finish] = all := by
  rw [tokenize_eq_of_unexpected]
  cases unexpected 0 source <;> simp

/-- **Tokenizing two texts in a row.**  An error of the first text stays as it is, and one of the
second, behind a first text without any, is moved by the size of that; whatever stands at the
cut.  Without errors the tokens of the two follow each other, with one token fewer where two runs
of `|` of odd length meet at the cut, or two such runs of `&`. -/
theorem tokenize_append (first second : Text) :
    (∀ error, tokenize first = .error error → tokenize (first ++ second) = .error error) ∧
    (∀ all c offset, tokenize first = .ok all → tokenize second = .error ⟨c, offset⟩ →
      tokenize (first ++ second) = .error ⟨c, offset + byteSize first⟩) ∧
    (∀ tokens tokens', tokenize first = .ok (tokens ++ [.finish]) →
      tokenize second = .ok (tokens' ++ [.finish]) →
      (OddRunsMeet '|' first second ∨ OddRunsMeet '&' first second →
        tokenize (first ++ second) = .ok (tokens ++ tokens'.tail ++ [.finish])) ∧
      (¬ (OddRunsMeet '|' first second ∨ OddRunsMeet '&' first second) →
        tokenize (first ++ second) = .ok (tokens ++ tokens' ++ [.finish]))) ∧
    ∀ text, (∃ error, tokenize text = .error error) ∨
      ∃ tokens, tokenize text = .ok (tokens ++ [.finish]) := by
  have errors : unexpected 0 (first ++ second) =
      unexpected 0 first ++ (unexpected 0 second).map (Unexpected.shift (byteSize first)) := by
    rw [Text.unexpected_append, Nat.zero_add, ← Text.unexpected_add, Nat.add_zero]
  refine ⟨fun error failed => ?_, fun all c offset clean failed => ?_,
    fun before behind clean clean' => ?_, fun text => ?_⟩
  · rw [tokenize_eq_error_iff_head?] at failed ⊢
    rw [errors, List.head?_append, failed]
    rfl
  · obtain ⟨none_first, -⟩ := tokenize_eq_ok_iff_tokens.mp clean
    rw [tokenize_eq_error_iff_head?] at failed ⊢
    rw [errors, none_first, List.nil_append, List.head?_map, failed, Nat.add_comm offset]
    rfl
  · obtain ⟨none_first, same⟩ := tokenize_eq_ok_iff_tokens.mp clean
    obtain ⟨none_second, same'⟩ := tokenize_eq_ok_iff_tokens.mp clean'
    obtain rfl := List.append_cancel_right same
    obtain rfl := List.append_cancel_right same'
    have none_unexpected : unexpected 0 (first ++ second) = [] := by
      rw [errors, none_first, none_second]
      rfl
    constructor
    · intro meet
      refine tokenize_eq_ok_iff_tokens.mpr ⟨none_unexpected, ?_⟩
      rw [Text.tokens_append, if_pos meet]
    · intro apart
      refine tokenize_eq_ok_iff_tokens.mpr ⟨none_unexpected, ?_⟩
      rw [Text.tokens_append, if_neg apart]
  · cases tokenized : tokenize text with
    | error error => exact .inl ⟨error, rfl⟩
    | ok all =>
        obtain ⟨-, rfl⟩ := tokenize_eq_ok_iff_tokens.mp tokenized
        exact .inr ⟨tokens text, rfl⟩

/-- A bar in front of three of them, and in front of one and a character of three bytes. -/
theorem tokenize_append_between_bars :
    tokenize (['a', '|'] ++ ['|', '|', '|', 'b']) =
        .ok ([.ident 'a' 0, .plain .or '|'] ++ [.plain .or '|', .ident 'b' 1] ++ [.finish]) ∧
      tokenize (['a', '|'] ++ ['|', '€']) = .error ⟨'€', 1 + 2⟩ ∧
      tokenize (['€', '|'] ++ ['|', 'b']) = .error ⟨'€', 0⟩ := by
  have first : tokenize ['a', '|'] = .ok ([.ident 'a' 0, .plain .or '|'] ++ [.finish]) := by
    decide +kernel
  have bars : tokenize ['|', '|', '|', 'b'] =
      .ok ([.plain .or '|', .plain .or '|', .ident 'b' 1] ++ [.finish]) := by decide +kernel
  have wide : tokenize ['|', '€'] = .error ⟨'€', 1⟩ := by decide +kernel
  have failed : tokenize ['€', '|'] = .error ⟨'€', 0⟩ := by decide +kernel
  have meet : OddRunsMeet '|' ['a', '|'] ['|', '|', '|', 'b'] := by decide
  exact ⟨((tokenize_append _ _).2.2.1 _ _ first bars).1 (.inl meet),
    (tokenize_append _ _).2.1 _ _ _ first wide, (tokenize_append _ _).1 _ failed⟩

end BooleanLexer
