/-
# BooleanLexer.Proofs.Item.Concatenation -- reading two texts as one

Reading keeps nothing in mind but the text in front of it, so the stream of a text that
is put together is the stream of its first part and then that of its second part, moved
to where it stands.  There is one exception: the cut may fall inside a doubled operator.
Operators are doubled from the left, so that depends on the whole run of the operator
at the end of the first part, namely on whether its length is odd (`Joins`).

In the exceptional case the streams always differ (`stream_append_iff`,
`yielded_append_eq_iff`).
-/
import BooleanLexer.Cursor.Query
import BooleanLexer.Proofs.Cursor.Runs
import BooleanLexer.Proofs.Item.Shift
import Mathlib.Algebra.Ring.Parity
import Mathlib.Data.List.DropRight

namespace BooleanLexer

set_option autoImplicit false

open Text (isBlank byteSize)

/-! ## Runs at the end of a list -/

section Runs

variable {α : Type} {p : α → Bool} {first second : List α}

theorem rtakeWhile_append_of_pos (all : ∀ x ∈ second, p x) :
    (first ++ second).rtakeWhile p = first.rtakeWhile p ++ second := by
  have all : ∀ x ∈ second.reverse, p x := fun x mem => all x (List.mem_reverse.mp mem)
  rw [List.rtakeWhile, List.reverse_append, List.takeWhile_append_of_pos all,
    List.reverse_append, List.reverse_reverse, List.rtakeWhile]

theorem rtakeWhile_append_of_neg (notAll : ¬ ∀ x ∈ second, p x) :
    (first ++ second).rtakeWhile p = second.rtakeWhile p := by
  have stops : (second.reverse.takeWhile p).length ≠ second.reverse.length := by
    intro whole
    apply notAll
    intro x mem
    have same := (List.takeWhile_prefix p).eq_of_length whole
    exact List.mem_takeWhile_imp (same ▸ List.mem_reverse.mpr mem)
  rw [List.rtakeWhile, List.reverse_append, List.takeWhile_append, if_neg stops, List.rtakeWhile]

/-- What stands in front of a list keeps the parity of its last run, if it adds to that
run an even number of times when the run is the whole list. -/
theorem odd_rtakeWhile_append
    (even : (∀ x ∈ second, p x) → Even (first.rtakeWhile p).length) :
    Odd ((first ++ second).rtakeWhile p).length ↔ Odd (second.rtakeWhile p).length := by
  by_cases all : ∀ x ∈ second, p x
  · rw [rtakeWhile_append_of_pos all, List.length_append, List.rtakeWhile_eq_self_iff.mpr all,
      Nat.odd_add]
    have := even all
    grind
  · rw [rtakeWhile_append_of_neg all]

end Runs

/-- Whether the cut between two texts falls inside a doubled `c`: a run of `c` of odd length
ends the first, and the second goes on with `c`. -/
def Joins (c : Char) (first second : Text) : Prop :=
  Odd (first.rtakeWhile (· = c)).length ∧ second.head? = some c

theorem not_joins_nil (c : Char) (second : Text) : ¬ Joins c [] second := by
  simp [Joins]

/-- The operator that is doubled across a cut stands in front of it. -/
theorem Joins.getLast?_eq {c : Char} {first second : Text} (joins : Joins c first second) :
    first.getLast? = some c := by
  obtain ⟨odd, -⟩ := joins
  rcases List.eq_nil_or_concat' first with rfl | ⟨front, last, rfl⟩
  · simp at odd
  · by_cases same : last = c
    · simp [same]
    · rw [List.rtakeWhile_concat_neg _ _ _ (by simpa using same)] at odd
      simp at odd

/-- Two texts are read apart if none of the two operators stands on both sides of the cut. -/
theorem apart_of_forall {first second : Text}
    (differ : ∀ c, c = '|' ∨ c = '&' → first.getLast? = some c → second.head? ≠ some c) :
    ¬ (Joins '|' first second ∨ Joins '&' first second) := by
  rintro (joins | joins)
  · exact differ '|' (.inl rfl) joins.getLast?_eq joins.2
  · exact differ '&' (.inr rfl) joins.getLast?_eq joins.2

theorem joins_cons_of_ne {c d : Char} (different : d ≠ c) (first second : Text) :
    Joins c (d :: first) second ↔ Joins c first second := by
  have even : (∀ x ∈ first, decide (x = c) = true) →
      Even ([d].rtakeWhile (· = c)).length := fun _ => by simp [List.rtakeWhile, different]
  rw [Joins, Joins, ← List.singleton_append, odd_rtakeWhile_append even]

namespace Lexeme

/-- A text of one character joins another one where it is doubled by it. -/
theorem isDoubled_iff {c : Char} {rest : Text} :
    isDoubled c rest = true ↔ Joins '|' [c] rest ∨ Joins '&' [c] rest := by
  unfold isDoubled Joins
  by_cases bar : c = '|'
  · simp [bar, List.rtakeWhile]
  · by_cases ampersand : c = '&' <;> simp [bar, ampersand, List.rtakeWhile]

/-- A lexeme with something behind it does not count for a cut behind that. -/
theorem joins_cons_iff {mark c : Char} (isMark : mark = '|' ∨ mark = '&') {rest : Text}
    (nonempty : rest ≠ []) (second : Text) :
    Joins mark (c :: rest) second ↔ Joins mark (after c rest) second := by
  have even : (∀ d ∈ after c rest, decide (d = mark) = true) →
      Even ((written c rest).rtakeWhile (· = mark)).length := by
    intro all
    unfold written
    split
    · by_cases same : c = mark <;> simp [List.rtakeWhile, same]
    · next single =>
        have different : c ≠ mark := by
          rintro rfl
          obtain ⟨d, tail, rfl⟩ := List.exists_cons_of_ne_nil nonempty
          rw [after, if_neg single] at all
          have : d = c := by simpa using all d List.mem_cons_self
          rcases isMark with rfl | rfl <;> exact single (by simp [isDoubled, this])
        simp [List.rtakeWhile, different]
  rw [Joins, Joins, ← odd_rtakeWhile_append even, written_append_after]

/-- What stands behind more of the text does not change its first lexeme. -/
theorem isDoubled_append (c : Char) {rest : Text} (nonempty : rest ≠ []) (second : Text) :
    isDoubled c (rest ++ second) = isDoubled c rest := by
  obtain ⟨d, tail, rfl⟩ := List.exists_cons_of_ne_nil nonempty
  rfl

theorem after_append (c : Char) {rest : Text} (nonempty : rest ≠ []) (second : Text) :
    after c (rest ++ second) = after c rest ++ second := by
  rw [after, after, isDoubled_append c nonempty]
  split
  · exact List.tail_append_of_ne_nil nonempty
  · rfl

theorem written_append (c : Char) {rest : Text} (nonempty : rest ≠ []) (second : Text) :
    written c (rest ++ second) = written c rest := by
  rw [written, written, isDoubled_append c nonempty]

end Lexeme

namespace Item

/-- The streams of two texts follow each other in that of the whole, unless the cut falls
inside a doubled operator. -/
theorem stream_append_iff (position : Nat) (first second : Text) :
    stream position (first ++ second) =
        stream position first ++ stream (position + byteSize first) second ↔
      ¬ (Joins '|' first second ∨ Joins '&' first second) := by
  induction first using Text.reading_induction generalizing position with
  | nil => simp [not_joins_nil]
  | blank c rest blank ih =>
      have bar : c ≠ '|' := by rintro rfl; exact absurd blank (by decide)
      have ampersand : c ≠ '&' := by rintro rfl; exact absurd blank (by decide)
      rw [List.cons_append, stream_cons_blank _ blank, stream_cons_blank _ blank,
        Text.byteSize_cons, ← Nat.add_assoc, ih, joins_cons_of_ne bar, joins_cons_of_ne ampersand]
  | lexeme c rest solid ih =>
      rw [List.cons_append, stream_cons _ solid, stream_cons _ solid]
      cases rest with
      | nil =>
          have size := c.utf8Size_pos
          rw [← Lexeme.isDoubled_iff, List.nil_append]
          by_cases doubled : Lexeme.isDoubled c second = true
          · -- The first lexeme is longer than it is without the second text.
            simp [Lexeme.written, doubled]
            omega
          · simp [Lexeme.written, Lexeme.after, doubled]
      | cons d rest =>
          have nonempty : d :: rest ≠ [] := List.cons_ne_nil d rest
          have size : byteSize (c :: d :: rest) = byteSize (Lexeme.written c (d :: rest)) +
              byteSize (Lexeme.after c (d :: rest)) := by
            rw [← Text.byteSize_append, Lexeme.written_append_after]
          rw [Lexeme.written_append c nonempty, Lexeme.after_append c nonempty,
            Lexeme.joins_cons_iff (.inl rfl) nonempty, Lexeme.joins_cons_iff (.inr rfl) nonempty,
            ← ih (position + byteSize (Lexeme.written c (d :: rest))), size, ← Nat.add_assoc,
            List.cons_append, List.cons.injEq]
          simp

end Item

namespace Cursor

/-- The stream of a new cursor yields the items of its source. -/
theorem yielded_readAll_new (source : Text) :
    yielded (new source).readAll.1 = Item.stream 0 source := by
  have all : (new source).readAll.1 = Item.readAll 0 (new source).rest := rfl
  rw [all, rest_new]
  rfl

/-- **The law of concatenation.**  What the stream of two texts in a row yields is what
that of the first yields and then what that of the second yields, moved by the size of the
first, exactly if the cut is not inside a doubled operator. -/
theorem yielded_append_eq_iff (first second : Text) :
    yielded (new (first ++ second)).readAll.1 =
        yielded (new first).readAll.1 ++
          (yielded (new second).readAll.1).map (Item.shift (byteSize first)) ↔
      ¬ Joins '|' first second ∧ ¬ Joins '&' first second := by
  simp only [yielded_readAll_new]
  rw [← Item.stream_add, Nat.add_zero, ← not_or, ← Item.stream_append_iff 0, Nat.zero_add]

end Cursor

end BooleanLexer
