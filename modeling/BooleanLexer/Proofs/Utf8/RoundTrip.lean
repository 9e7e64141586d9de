/-
# BooleanLexer.Proofs.Utf8.RoundTrip -- the bytes of a text, and the text of bytes

The bytes of a text are divided into its characters, whatever stands behind them
(`pieces_encode_append`), so decoding them gives the text back: also one that holds a byte-order
mark, or the replacement character itself.

Bytes have a fault exactly if they are those of no text (`fault?_eq_none_iff`).
-/
import BooleanLexer.Proofs.Utf8.Pieces

namespace BooleanLexer.Utf8

set_option autoImplicit false

/-- A character in its own bytes. -/
def Piece.ofChar (c : Char) : Piece := .whole (String.utf8EncodeChar c) c

theorem encode_cons (c : Char) (text : Text) :
    encode (c :: text) = String.utf8EncodeChar c ++ encode text :=
  List.flatMap_cons

theorem length_encode (text : Text) : (encode text).length = Text.byteSize text := by
  induction text with
  | nil => rfl
  | cons c text ih =>
      rw [encode_cons, List.length_append, String.length_utf8EncodeChar, ih, Text.byteSize_cons]

theorem pieces_encodeChar_append (c : Char) (bytes : List UInt8) :
    pieces (String.utf8EncodeChar c ++ bytes) = .ofChar c :: pieces bytes := by
  obtain ⟨lead, tail, encoded, -⟩ := exists_completes c
  have found : first lead (tail ++ bytes) = .ofChar c :=
    first_encode c (by rw [encoded, List.cons_append])
  rw [encoded, List.cons_append, pieces, found]
  rw [Piece.ofChar, Piece.bytes, encoded, List.length_cons, Nat.add_sub_cancel, List.drop_left]

/-- The bytes of a text are divided into its characters. -/
theorem pieces_encode_append (text : Text) (bytes : List UInt8) :
    pieces (encode text ++ bytes) = text.map .ofChar ++ pieces bytes := by
  induction text with
  | nil => rfl
  | cons c text ih =>
      rw [encode_cons, List.append_assoc, pieces_encodeChar_append, ih, List.map_cons,
        List.cons_append]

theorem pieces_encode (text : Text) : pieces (encode text) = text.map .ofChar := by
  have divided := pieces_encode_append text []
  rwa [List.append_nil, pieces, List.append_nil] at divided

theorem decode_encode (text : Text) : decode (encode text) = text := by
  rw [decode, pieces_encode, List.map_map]
  exact List.map_id' text

/-! ## Faults -/

theorem firstFault?_eq_none_iff {index : Nat} {pieces : List Piece} :
    firstFault? index pieces = none ↔ ∀ piece ∈ pieces, piece.isBroken = false := by
  induction pieces generalizing index with
  | nil => simp [firstFault?]
  | cons piece pieces ih => cases piece <;> simp [firstFault?, Piece.isBroken, ih]

/-- Whole pieces are the characters that they are read as. -/
theorem flatMap_bytes_of_whole {pieces : List Piece}
    (whole : ∀ piece ∈ pieces, piece.Sound ∧ piece.isBroken = false) :
    pieces.flatMap Piece.bytes = encode (pieces.map Piece.char) := by
  induction pieces with
  | nil => rfl
  | cons piece pieces ih =>
      obtain ⟨⟨sound, unbroken⟩, later⟩ := List.forall_mem_cons.mp whole
      cases sound with
      | whole c => rw [List.flatMap_cons, ih later, List.map_cons, encode_cons]; rfl
      | broken broken => rw [broken] at unbroken; cases unbroken

/-- Bytes have no fault exactly if they are those of a text. -/
theorem fault?_eq_none_iff (bytes : List UInt8) :
    fault? bytes = none ↔ ∃ text, bytes = encode text := by
  rw [fault?, firstFault?_eq_none_iff]
  constructor
  · intro unbroken
    refine ⟨decode bytes, ?_⟩
    rw [decode, ← flatMap_bytes_of_whole fun piece mem =>
      ⟨sound_of_mem_pieces mem, unbroken piece mem⟩]
    exact (flatten_bytes_pieces bytes).symm
  · rintro ⟨text, rfl⟩ piece mem
    rw [pieces_encode] at mem
    obtain ⟨c, -, rfl⟩ := List.mem_map.mp mem
    rfl

end BooleanLexer.Utf8
