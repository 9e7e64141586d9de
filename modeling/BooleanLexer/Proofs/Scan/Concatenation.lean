/-
# BooleanLexer.Proofs.Scan.Concatenation -- decoding and scanning at a cut

Where the bytes behind a cut cannot continue a character, nothing in front of the cut sees them: a
piece that ends at the cut ends there anyway, whether it is whole or broken (`first_append`).  So
bytes are decoded apart at such a cut (`decode_append`), also if it stands within a character.

The texts are then read apart too, unless the second starts with an operator that may be doubled.
It starts with such a character only if that is what its bytes start with
(`startsWith_of_head?_decode`).
-/
import BooleanLexer.Cursor.Query
import BooleanLexer.Proofs.Item.Edits
import BooleanLexer.Proofs.Utf8.Pieces
import BooleanLexer.Scan.Listing

namespace BooleanLexer

set_option autoImplicit false

open Text (byteSize)

/-! ## Decoding -/

namespace Utf8

/-- The bytes that may follow a lead byte are among those that only continue a character. -/
theorem isTail_of_contains {lead : UInt8} {ranges : List ByteRange}
    (asked : continuations? lead = some ranges) {range : ByteRange} (mem : range ∈ ranges)
    {byte : UInt8} (inside : range.contains byte = true) : IsTail byte := by
  obtain ⟨low, -, high⟩ := bounds_of_mem_continuations? asked mem
  obtain ⟨ge, le⟩ := (range.contains_iff byte).mp inside
  constructor
  · omega
  · omega

/-- The run of bytes that follow ends at a cut at the latest, if the byte behind the cut is in none
of the ranges. -/
theorem following_append {ranges : List ByteRange} {front back : List UInt8}
    (stops : ∀ byte ∈ back.head?, ∀ range ∈ ranges, range.contains byte = false) :
    following ranges (front ++ back) = following ranges front := by
  induction front generalizing ranges with
  | nil =>
      cases ranges with
      | nil => simp [following]
      | cons range ranges =>
          cases back with
          | nil => rfl
          | cons byte back =>
              have outside := stops byte rfl range List.mem_cons_self
              simp [following, outside]
  | cons byte front ih =>
      cases ranges with
      | nil => simp [following]
      | cons range ranges =>
          rw [List.cons_append, following, following, ih]
          intro byte head range' mem
          exact stops byte head range' (List.mem_cons_of_mem range mem)

variable {back : List UInt8}

/-- A cut in front of a byte that continues nothing makes no difference to the piece before it, but
for the reason why a broken one is broken. -/
theorem first_append (stops : ∀ byte ∈ back.head?, ¬ IsTail byte) (lead : UInt8)
    (rest : List UInt8) :
    (first lead (rest ++ back)).bytes = (first lead rest).bytes ∧
      (first lead (rest ++ back)).char = (first lead rest).char := by
  unfold first
  cases asked : continuations? lead with
  | none => exact ⟨rfl, rfl⟩
  | some ranges =>
      have same : following ranges (rest ++ back) = following ranges rest := by
        apply following_append
        intro byte head range mem
        apply Bool.eq_false_iff.mpr
        intro inside
        exact stops byte head (isTail_of_contains asked mem inside)
      dsimp only
      rw [same]
      by_cases full : (following ranges rest).length = ranges.length
      · rw [if_pos full, if_pos full]
        exact ⟨rfl, rfl⟩
      · rw [if_neg full, if_neg full]
        -- With nothing behind it the piece is truncated, and otherwise malformed.
        constructor
        · split <;> split <;> rfl
        · split <;> split <;> rfl

/-- Bytes are decoded apart in front of a byte that continues nothing. -/
theorem decode_append (stops : ∀ byte ∈ back.head?, ¬ IsTail byte) (front : List UInt8) :
    decode (front ++ back) = decode front ++ decode back := by
  induction front using pieces.induct with
  | case1 => rw [decode_nil, List.nil_append, List.nil_append]
  | case2 lead rest piece ih =>
      obtain ⟨bytes, char⟩ := first_append stops lead rest
      have inside : (first lead rest).bytes.length - 1 ≤ rest.length := by
        have whole := congrArg List.length (bytes_first_append_drop lead rest)
        rw [List.length_append, List.length_cons] at whole
        omega
      rw [List.cons_append, decode_cons, decode_cons, bytes, char,
        List.drop_append_of_le_length inside, ih, List.cons_append]

/-- A text that starts with any character but the replacement has been decoded from the bytes of
that character. -/
theorem startsWith_of_head?_decode {bytes : List UInt8} {c : Char}
    (ordinary : c ≠ Piece.replacement) (head : (decode bytes).head? = some c) :
    StartsWith bytes c := by
  cases bytes with
  | nil => simp [decode_nil] at head
  | cons lead rest =>
      rw [decode_cons, List.head?_cons, Option.some_inj] at head
      rcases (shows_iff lead rest c).mpr head.symm with starts | ⟨-, replaced⟩
      · exact starts
      · exact absurd replaced ordinary

end Utf8

/-! ## Scanning -/

namespace Scan

open Utf8 (IsTail decode)

/-- **Decoding and scanning are compositional in front of a byte that continues nothing.**  Whatever
stands before the cut, be it the first half of a character, bytes are decoded apart there.  Unless
the byte behind the cut is `|` or `&`, the items are those of the first part without its end, and
those of the second part, moved by the size of the first text. -/
theorem listing_append (front back : List UInt8) (stops : ∀ byte ∈ back.head?, ¬ IsTail byte) :
    decode (front ++ back) = decode front ++ decode back ∧
      ((∀ byte ∈ back.head?, byte ≠ 0x7c ∧ byte ≠ 0x26) →
        (Listing.ofText (decode (front ++ back))).items =
          Cursor.yielded (Listing.ofText (decode front)).items ++
            (Listing.ofText (decode back)).items.map (Item.shift (byteSize (decode front)))) := by
  have divided := Utf8.decode_append stops front
  refine ⟨divided, ?_⟩
  intro no_operator
  have apart : ¬ (Joins '|' (decode front) (decode back) ∨
      Joins '&' (decode front) (decode back)) := by
    apply apart_of_forall
    intro c doubles _ head
    rcases doubles with rfl | rfl
    · obtain ⟨behind, rfl⟩ := Utf8.startsWith_of_head?_decode (by decide) head
      exact (no_operator 0x7c rfl).1 rfl
    · obtain ⟨behind, rfl⟩ := Utf8.startsWith_of_head?_decode (by decide) head
      exact (no_operator 0x26 rfl).2 rfl
  show Item.readAll 0 (decode (front ++ back)) = Item.stream 0 (decode front) ++
    (Item.readAll 0 (decode back)).map (Item.shift (byteSize (decode front)))
  rw [divided, Item.readAll_append 0 apart, ← Item.readAll_add, Nat.zero_add, Nat.add_zero]

/-- A cut behind three bytes of a character of four, in front of one of three bytes. -/
theorem listing_append_behind_unfinished_character :
    let front : List UInt8 := [0x7c, 0xf0, 0x9f, 0x98]
    let back : List UInt8 := [0xe2, 0x82, 0xac, 0x7c]
    (∀ byte ∈ back.head?, ¬ IsTail byte ∧ byte ≠ 0x7c ∧ byte ≠ 0x26) ∧
      decode (front ++ back) = ['|', '\ufffd'] ++ ['€', '|'] ∧
      (Listing.ofText (decode (front ++ back))).items =
        [⟨.plain .or '|', ⟨0, 1⟩⟩, ⟨.plain .unknown '\ufffd', ⟨1, 4⟩⟩] ++
          (Listing.ofText ['€', '|']).items.map (Item.shift 4) := by
  intro front back
  have byte : ∀ byte ∈ back.head?, ¬ IsTail byte ∧ byte ≠ 0x7c ∧ byte ≠ 0x26 := by
    intro byte head
    obtain rfl : 0xe2 = byte := Option.some.inj head
    exact ⟨by rw [IsTail]; decide, by decide, by decide⟩
  have first : decode front = ['|', '\ufffd'] := by decide +kernel
  have second : decode back = ['€', '|'] := by decide +kernel
  obtain ⟨divided, items⟩ := listing_append front back fun _ head => (byte _ head).1
  refine ⟨byte, ?_, ?_⟩
  · rw [divided, first, second]
  · rw [items fun _ head => (byte _ head).2, first, second]
    decide +kernel

end Scan

end BooleanLexer
