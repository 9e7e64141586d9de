/-
# BooleanLexer.Proofs.Utf8.Repairs -- places in bytes and places in their text

Decoding repairs each broken piece: one replacement character of three bytes stands for its one
to three bytes.  So the places in the text are not those in the bytes, and they drift apart by
what the replacements in between have grown.  Nothing else makes a difference
(`textSize_eq_rawSize_add`), so the drift at the end of any pieces is told by the repairs that
stand before it in the text (`textSize_eq_add_drift`).
-/
import BooleanLexer.Proofs.Text.Cuts
import BooleanLexer.Proofs.Utf8.RoundTrip
import Mathlib.Algebra.GroupWithZero.Nat

namespace BooleanLexer.Utf8

set_option autoImplicit false

/-! ## Sizes of pieces -/

/-- The number of bytes in pieces. -/
def rawSize (pieces : List Piece) : Nat := (pieces.flatMap Piece.bytes).length

/-- The number of bytes of the text that pieces are read as. -/
def textSize (pieces : List Piece) : Nat := Text.byteSize (pieces.map Piece.char)

@[simp] theorem rawSize_nil : rawSize [] = 0 := rfl

@[simp] theorem textSize_nil : textSize [] = 0 := rfl

@[simp] theorem rawSize_cons (piece : Piece) (pieces : List Piece) :
    rawSize (piece :: pieces) = piece.bytes.length + rawSize pieces := by
  rw [rawSize, List.flatMap_cons, List.length_append, rawSize]

@[simp] theorem textSize_cons (piece : Piece) (pieces : List Piece) :
    textSize (piece :: pieces) = piece.char.utf8Size + textSize pieces := by
  rw [textSize, List.map_cons, Text.byteSize_cons, textSize]

@[simp] theorem rawSize_append (front back : List Piece) :
    rawSize (front ++ back) = rawSize front + rawSize back := by
  rw [rawSize, List.flatMap_append, List.length_append, rawSize, rawSize]

@[simp] theorem textSize_append (front back : List Piece) :
    textSize (front ++ back) = textSize front + textSize back := by
  rw [textSize, List.map_append, Text.byteSize_append, textSize, textSize]

theorem rawSize_pieces (bytes : List UInt8) : rawSize (pieces bytes) = bytes.length :=
  congrArg List.length (flatten_bytes_pieces bytes)

theorem textSize_pieces (bytes : List UInt8) :
    textSize (pieces bytes) = Text.byteSize (decode bytes) :=
  rfl

/-- Of two initial parts of the same pieces, the one with the smaller text is an initial part of
the other. -/
theorem prefix_of_textSize_le {all first second : List Piece} (of_all : first <+: all)
    (of_all' : second <+: all) (smaller : textSize first ≤ textSize second) :
    first <+: second := by
  rcases List.prefix_or_prefix_of_prefix of_all of_all' with longer | ⟨rest, rfl⟩
  · exact longer
  · have nothing : Text.byteSize (rest.map Piece.char) = 0 := by
      rw [textSize_append] at smaller
      exact Nat.le_zero.mp ((Nat.add_le_add_iff_left (n := textSize second)).mp smaller)
    obtain rfl : rest = [] := List.map_eq_nil_iff.mp (Text.byteSize_eq_zero_iff.mp nothing)
    exact ⟨[], by rw [List.append_nil, List.append_nil]⟩

theorem rawSize_le_of_prefix {first second : List Piece} (longer : first <+: second) :
    rawSize first ≤ rawSize second := by
  obtain ⟨rest, rfl⟩ := longer
  rw [rawSize_append]
  exact Nat.le_add_right _ _

/-! ## Repairs -/

/-- Broken bytes and the character that is put in their place. -/
structure Repair where
  /-- The first of the broken bytes. -/
  origin : Nat
  /-- How many bytes are broken. -/
  size : Nat
  /-- The byte of the text at which the replacement stands. -/
  place : Nat

/-- The repairs of pieces that start at byte `origin`, and whose text starts at byte `place`. -/
def repairsFrom (origin place : Nat) : List Piece → List Repair
  | [] => []
  | piece :: later =>
      (if piece.isBroken then [⟨origin, piece.bytes.length, place⟩] else []) ++
        repairsFrom (origin + piece.bytes.length) (place + piece.char.utf8Size) later

/-- The repairs that are made to decode bytes, in the order of their places. -/
def repairs (bytes : List UInt8) : List Repair := repairsFrom 0 0 (pieces bytes)

/-- How many bytes more than they replace the replacements have. -/
def growth (repairs : List Repair) : Nat := (repairs.map fun repair => 3 - repair.size).sum

/-- By how much byte `place` of the text of some bytes has moved: the growth of the replacements
that stand before it. -/
def drift (bytes : List UInt8) (place : Nat) : Nat :=
  growth ((repairs bytes).filter fun repair => repair.place < place)

theorem growth_append (first second : List Repair) :
    growth (first ++ second) = growth first + growth second := by
  rw [growth, List.map_append, List.sum_append, growth, growth]

theorem repairsFrom_append (origin place : Nat) (front back : List Piece) :
    repairsFrom origin place (front ++ back) =
      repairsFrom origin place front ++
        repairsFrom (origin + rawSize front) (place + textSize front) back := by
  induction front generalizing origin place with
  | nil => rfl
  | cons piece front ih =>
      rw [List.cons_append, repairsFrom, ih, repairsFrom, List.append_assoc, rawSize_cons,
        textSize_cons, ← Nat.add_assoc, ← Nat.add_assoc]

/-- A repair is made where a broken piece stands. -/
theorem exists_of_mem_repairsFrom {origin place : Nat} {pieces : List Piece} {repair : Repair}
    (mem : repair ∈ repairsFrom origin place pieces) :
    ∃ front piece back, pieces = front ++ piece :: back ∧ piece.isBroken = true ∧
      repair = ⟨origin + rawSize front, piece.bytes.length, place + textSize front⟩ := by
  induction pieces generalizing origin place with
  | nil => cases mem
  | cons piece pieces ih =>
      rw [repairsFrom] at mem
      rcases List.mem_append.mp mem with here | later
      · split at here
        · next broken =>
            rw [List.mem_singleton.mp here]
            exact ⟨[], piece, pieces, rfl, broken, rfl⟩
        · cases here
      · obtain ⟨front, broken_piece, back, rfl, broken, rfl⟩ := ih later
        refine ⟨piece :: front, broken_piece, back, rfl, broken, ?_⟩
        rw [rawSize_cons, textSize_cons, Nat.add_assoc, Nat.add_assoc]

theorem size_char_of_isBroken {piece : Piece} (broken : piece.isBroken = true) :
    piece.char = Piece.replacement ∧ piece.char.utf8Size = 3 := by
  cases piece with
  | whole bytes c => cases broken
  | malformed bytes => exact ⟨rfl, rfl⟩
  | truncated bytes => exact ⟨rfl, rfl⟩

/-- The text of pieces is larger than their bytes by the growth of the repairs. -/
theorem textSize_eq_rawSize_add {pieces : List Piece} (sound : ∀ piece ∈ pieces, piece.Sound)
    (origin place : Nat) :
    textSize pieces = rawSize pieces + growth (repairsFrom origin place pieces) := by
  induction pieces generalizing origin place with
  | nil => rfl
  | cons piece pieces ih =>
      obtain ⟨here, later⟩ := List.forall_mem_cons.mp sound
      rw [textSize_cons, rawSize_cons, repairsFrom, growth_append,
        ih later (origin + piece.bytes.length) (place + piece.char.utf8Size)]
      have step : piece.char.utf8Size = piece.bytes.length +
          growth (if piece.isBroken then [⟨origin, piece.bytes.length, place⟩] else []) := by
        cases here with
        | whole c => exact (String.length_utf8EncodeChar c).symm
        | broken broken pos small =>
            rw [if_pos broken, (size_char_of_isBroken broken).2, growth, List.map_singleton,
              List.sum_singleton]
            exact (Nat.add_sub_cancel' small).symm
      omega

section Bytes

variable {bytes : List UInt8} {front back : List Piece}

theorem sound_of_divided (divided : pieces bytes = front ++ back) :
    ∀ piece ∈ front, piece.Sound := by
  intro piece mem
  apply sound_of_mem_pieces
  rw [divided]
  exact List.mem_append_left back mem

/-- The repairs in front of a place between two pieces are those of the pieces in front. -/
theorem drift_textSize (divided : pieces bytes = front ++ back) :
    drift bytes (textSize front) = growth (repairsFrom 0 0 front) := by
  rw [drift, repairs, divided, repairsFrom_append, List.filter_append,
    List.filter_eq_self.mpr, List.filter_eq_nil_iff.mpr, List.append_nil]
  · intro repair mem
    obtain ⟨before, piece, after, -, -, rfl⟩ := exists_of_mem_repairsFrom mem
    simp only [decide_eq_true_eq]
    omega
  · intro repair mem
    obtain ⟨before, piece, after, rfl, -, rfl⟩ := exists_of_mem_repairsFrom mem
    have := piece.char.utf8Size_pos
    simp only [decide_eq_true_eq, textSize_append, textSize_cons]
    omega

/-- Behind pieces, the place in the text is that in the bytes, moved by the drift. -/
theorem textSize_eq_add_drift (divided : pieces bytes = front ++ back) :
    textSize front = rawSize front + drift bytes (textSize front) := by
  rw [drift_textSize divided]
  exact textSize_eq_rawSize_add (sound_of_divided divided) 0 0

/-- The text of bytes is larger than these by the growth of all repairs. -/
theorem byteSize_decode (bytes : List UInt8) :
    Text.byteSize (decode bytes) = bytes.length + growth (repairs bytes) := by
  rw [← textSize_pieces, ← rawSize_pieces]
  exact textSize_eq_rawSize_add (fun piece => sound_of_mem_pieces) 0 0

/-- Where pieces begin, a character starts if the first of them is whole, and a maximal subpart
stands if it is broken. -/
theorem drop_rawSize_of_divided {piece : Piece} (divided : pieces bytes = front ++ piece :: back) :
    (∀ c, piece = .ofChar c → StartsWith (bytes.drop (rawSize front)) c) ∧
      (piece.isBroken = true →
        MaximalSubpart (bytes.drop (rawSize front)) piece.bytes.length) := by
  have behind := pieces_drop divided
  rw [← rawSize] at behind
  cases remaining : bytes.drop (rawSize front) with
  | nil =>
      rw [remaining, pieces] at behind
      cases behind
  | cons lead rest =>
      rw [remaining, pieces] at behind
      obtain ⟨rfl, -⟩ := List.cons.inj behind
      exact ⟨fun c whole => (startsWith_iff lead rest c).mpr whole, maximalSubpart_first⟩

/-- The bytes between two places are those of the pieces in between. -/
theorem extract_of_divided {middle : List Piece} (divided : pieces bytes = front ++ (middle ++ back)) :
    bytes.extract (rawSize front) (rawSize (front ++ middle)) = middle.flatMap Piece.bytes := by
  have flat : bytes = (front.flatMap Piece.bytes ++ middle.flatMap Piece.bytes) ++
      back.flatMap Piece.bytes := by
    rw [← List.flatMap_append, ← List.flatMap_append, List.append_assoc, ← divided]
    exact (flatten_bytes_pieces bytes).symm
  rw [List.extract_eq_drop_take', flat, List.take_left', List.drop_left']
  · rfl
  · rw [← List.flatMap_append]
    rfl

/-- A byte in the range of a piece is one of its own. -/
theorem mem_of_divided {piece : Piece} (divided : pieces bytes = front ++ piece :: back)
    {index : Nat} {byte : UInt8} (from_piece : rawSize front ≤ index)
    (before : index < rawSize front + piece.bytes.length) (found : bytes[index]? = some byte) :
    byte ∈ piece.bytes := by
  have own : bytes.extract (rawSize front) (rawSize (front ++ [piece])) =
      [piece].flatMap Piece.bytes := extract_of_divided divided
  rw [List.extract_eq_drop_take', List.flatMap_singleton, rawSize_append, rawSize_cons,
    rawSize_nil, Nat.add_zero] at own
  rw [← own]
  apply List.mem_of_getElem? (i := index - rawSize front)
  rw [List.getElem?_drop, Nat.add_sub_cancel' from_piece, List.getElem?_take, if_pos before, found]

/-- What a repair does: it stands for a maximal subpart of one to three bytes, none of them
ASCII, and puts the replacement character in its place. -/
theorem spec_of_mem_repairs {repair : Repair} (mem : repair ∈ repairs bytes) :
    1 ≤ repair.size ∧ repair.size ≤ 3 ∧
      MaximalSubpart (bytes.drop repair.origin) repair.size ∧
      (∀ index byte, repair.origin ≤ index → index < repair.origin + repair.size →
        bytes[index]? = some byte → 0x80 ≤ byte.toNat) ∧
      Text.Written 0 (decode bytes) repair.place (repair.place + 3) [Piece.replacement] := by
  obtain ⟨front, piece, back, divided, broken, rfl⟩ := exists_of_mem_repairsFrom mem
  have sound : piece.Sound := sound_of_mem_pieces (by rw [divided]; simp)
  obtain ⟨char, size⟩ := size_char_of_isBroken broken
  rw [Nat.zero_add, Nat.zero_add]
  cases sound with
  | whole c => cases broken
  | broken _ pos small no_ascii =>
      refine ⟨pos, small, (drop_rawSize_of_divided divided).2 broken, ?_, ?_⟩
      · intro index byte from_origin before found
        exact no_ascii byte (mem_of_divided divided from_origin before found)
      · refine ⟨front.map Piece.char, back.map Piece.char, ?_, ?_, ?_⟩
        · rw [decode, divided, List.map_append, List.map_cons, char, List.append_assoc]
          rfl
        · rw [Nat.zero_add]
          rfl
        · rfl

/-- Repairs do not overlap and are listed in their order. -/
theorem pairwise_repairsFrom (origin place : Nat) (pieces : List Piece) :
    (repairsFrom origin place pieces).Pairwise fun earlier later =>
      earlier.origin + earlier.size ≤ later.origin := by
  induction pieces generalizing origin place with
  | nil => exact .nil
  | cons piece pieces ih =>
      rw [repairsFrom]
      refine List.pairwise_append.mpr ⟨?_, ih _ _, ?_⟩
      · split
        · exact List.pairwise_singleton _ _
        · exact .nil
      · intro earlier here later mem
        obtain ⟨front, -, -, -, -, rfl⟩ := exists_of_mem_repairsFrom mem
        split at here
        · rw [List.mem_singleton.mp here]
          exact Nat.le_add_right _ _
        · cases here

end Bytes

end BooleanLexer.Utf8
