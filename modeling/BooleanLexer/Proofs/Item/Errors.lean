/-
# BooleanLexer.Proofs.Item.Errors -- the unexpected characters of a text

A character is expected if it is a blank, a letter or a mark.  `Text.unexpected` goes
through a text one character at a time and knows nothing of tokens; the errors of the
items of a text are the same list (`filterMap_error?_stream`), so a scan stops being
clean at the first character that is not expected (`error?_ofText`).
-/
import BooleanLexer.Proofs.Item.Steps
import BooleanLexer.Scan.Listing
import Mathlib.Data.List.Basic

namespace BooleanLexer

set_option autoImplicit false

namespace Text

/-- A character that some token may hold, or that separates tokens. -/
def IsExpected (c : Char) : Prop := c ∈ blanks ∨ IsLetter c ∨ c ∈ marks

instance (c : Char) : Decidable (IsExpected c) := inferInstanceAs (Decidable (_ ∨ _))

theorem isExpected_of_isBlank {c : Char} (blank : isBlank c = true) : IsExpected c := by
  left
  simpa [isBlank] using blank

/-- The characters that are not expected, in a text at `position`. -/
def unexpected (position : Nat) : Text → List Unexpected
  | [] => []
  | c :: rest =>
      if IsExpected c then unexpected (position + c.utf8Size) rest
      else ⟨c, position⟩ :: unexpected (position + c.utf8Size) rest

theorem unexpected_cons_of_isExpected (position : Nat) {c : Char} (expected : IsExpected c)
    (rest : Text) :
    unexpected position (c :: rest) = unexpected (position + c.utf8Size) rest := by
  rw [unexpected, if_pos expected]

theorem unexpected_cons_of_not_isExpected (position : Nat) {c : Char}
    (strange : ¬ IsExpected c) (rest : Text) :
    unexpected position (c :: rest) =
      ⟨c, position⟩ :: unexpected (position + c.utf8Size) rest := by
  rw [unexpected, if_neg strange]

theorem unexpected_append (position : Nat) (front rest : Text) :
    unexpected position (front ++ rest) =
      unexpected position front ++ unexpected (position + byteSize front) rest := by
  induction front generalizing position with
  | nil => rfl
  | cons c front ih =>
      rw [List.cons_append, byteSize_cons, ← Nat.add_assoc]
      by_cases expected : IsExpected c
      · rw [unexpected_cons_of_isExpected position expected,
          unexpected_cons_of_isExpected position expected, ih]
      · rw [unexpected_cons_of_not_isExpected position expected,
          unexpected_cons_of_not_isExpected position expected, ih, List.cons_append]

theorem unexpected_eq_nil {position : Nat} {text : Text}
    (expected : ∀ c ∈ text, IsExpected c) : unexpected position text = [] := by
  induction text generalizing position with
  | nil => rfl
  | cons c rest ih =>
      rw [unexpected_cons_of_isExpected position (expected c List.mem_cons_self)]
      exact ih fun d mem => expected d (List.mem_cons_of_mem c mem)

theorem isExpected_of_unexpected_eq_nil {position : Nat} {text : Text}
    (clean : unexpected position text = []) : ∀ c ∈ text, IsExpected c := by
  induction text generalizing position with
  | nil => nofun
  | cons c rest ih =>
      by_cases expected : IsExpected c
      · rw [unexpected_cons_of_isExpected position expected] at clean
        exact List.forall_mem_cons.mpr ⟨expected, ih clean⟩
      · rw [unexpected_cons_of_not_isExpected position expected] at clean
        cases clean

end Text

namespace Item

open Text (isBlank byteSize IsExpected unexpected)

theorem error?_leading_of_isExpected {c : Char} (solid : isBlank c = false)
    (expected : IsExpected c) (span : Span) : error? ⟨Token.leading c, span⟩ = none := by
  have known : (Token.leading c).kind ≠ .unknown := by
    rw [Ne, Lexeme.kind_leading_eq_unknown_iff]
    rintro ⟨no_letter, no_mark⟩
    rcases expected with blank | letter | mark
    · simp [isBlank, blank] at solid
    · exact no_letter letter
    · exact no_mark mark
  unfold error?
  split
  · next unknown _ => exact absurd unknown known
  · rfl

theorem error?_leading_of_not_isExpected {c : Char} (strange : ¬ IsExpected c) (span : Span) :
    error? ⟨Token.leading c, span⟩ = some ⟨c, span.start⟩ := by
  have unknown : (Token.leading c).kind = .unknown := by
    rw [Lexeme.kind_leading_eq_unknown_iff]
    exact ⟨fun letter => strange (Or.inr (Or.inl letter)),
      fun mark => strange (Or.inr (Or.inr mark))⟩
  simp only [error?, unknown, Lexeme.symbol_leading]

/-- What one token is written with holds its error and no other. -/
theorem unexpected_written (position : Nat) {c : Char} (solid : isBlank c = false)
    (rest : Text) (stop : Nat) :
    unexpected position (Lexeme.written c rest) =
      (error? ⟨Token.leading c, ⟨position, stop⟩⟩).toList := by
  by_cases expected : IsExpected c
  · rw [error?_leading_of_isExpected solid expected, Option.toList_none]
    apply Text.unexpected_eq_nil
    intro d mem
    exact Lexeme.eq_of_mem_written mem ▸ expected
  · have single : Lexeme.written c rest = [c] := by
      apply if_neg
      intro doubled
      apply expected
      right; right
      rcases Lexeme.doubles_of_isDoubled doubled with rfl | rfl <;> decide
    rw [error?_leading_of_not_isExpected expected, single,
      Text.unexpected_cons_of_not_isExpected position expected, Text.unexpected,
      Option.toList_some]

/-- No error is lost, none is added and none comes twice. -/
theorem filterMap_error?_stream (position : Nat) (text : Text) :
    (stream position text).filterMap error? = unexpected position text := by
  induction text using Text.reading_induction generalizing position with
  | nil => simp [Text.unexpected]
  | blank c rest blank ih =>
      rw [stream_cons_blank position blank, ih,
        Text.unexpected_cons_of_isExpected position (Text.isExpected_of_isBlank blank)]
  | lexeme c rest solid ih =>
      rw [stream_cons position solid, List.filterMap_eq_flatMap_toList,
        List.flatMap_cons, ← List.filterMap_eq_flatMap_toList, ih,
        ← unexpected_written position solid rest, ← Text.unexpected_append,
        Lexeme.written_append_after]

theorem filterMap_error?_readAll (position : Nat) (text : Text) :
    (readAll position text).filterMap error? = unexpected position text := by
  rw [readAll_eq_stream_append, List.filterMap_append, filterMap_error?_stream]
  simp [atEnd, error?, Token.finish]

end Item

/-- The error of a scan is the first character that is not expected. -/
theorem Scan.Listing.error?_ofText (source : Text) :
    (ofText source).error? = (Text.unexpected 0 source).head? := by
  rw [← Item.filterMap_error?_readAll, List.head?_filterMap]
  rfl

end BooleanLexer
