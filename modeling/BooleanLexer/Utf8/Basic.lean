/-
# BooleanLexer.Utf8.Basic -- bytes as pieces of text

UTF-8 writes a character as a lead byte and up to three continuation bytes.  The lead
byte tells how many follow and, for some leads, narrows the range of the first one
(`continuations?`), so that there is no second form of a character, no surrogate and
nothing beyond the last code point.

`first` takes the longest run of bytes that starts a character.  Either it is a whole
character, or it is broken: some byte that cannot follow stands behind it
(`malformed`), or nothing does (`truncated`).  `pieces` divides any bytes into such
pieces; no byte is lost (`flatten_bytes_pieces`).
-/
import BooleanLexer.Text.Basic

namespace BooleanLexer.Utf8

set_option autoImplicit false

/-- The bytes from `low` to `high`. -/
structure ByteRange where
  low : UInt8
  high : UInt8
deriving DecidableEq

/-- Whether a byte is in a range. -/
def ByteRange.contains (range : ByteRange) (byte : UInt8) : Bool :=
  range.low ≤ byte && byte ≤ range.high

/-- The bytes that continue a character. -/
def continuation : ByteRange := ⟨0x80, 0xbf⟩

/-- The ranges of the bytes that follow a lead byte; `none` for a byte that leads no
character. -/
def continuations? (lead : UInt8) : Option (List ByteRange) :=
  if lead ≤ 0x7f then some []
  else if lead ≤ 0xc1 then none
  else if lead ≤ 0xdf then some [continuation]
  else if lead = 0xe0 then some [⟨0xa0, 0xbf⟩, continuation]
  else if lead = 0xed then some [⟨0x80, 0x9f⟩, continuation]
  else if lead ≤ 0xef then some [continuation, continuation]
  else if lead = 0xf0 then some [⟨0x90, 0xbf⟩, continuation, continuation]
  else if lead ≤ 0xf3 then some [continuation, continuation, continuation]
  else if lead = 0xf4 then some [⟨0x80, 0x8f⟩, continuation, continuation]
  else none

/-- The longest run of bytes that are in the given ranges, one after the other. -/
def following : List ByteRange → List UInt8 → List UInt8
  | range :: ranges, byte :: bytes =>
      if range.contains byte then byte :: following ranges bytes else []
  | _, _ => []

/-- The character that a lead byte and all its continuation bytes stand for. -/
def assemble (lead : UInt8) (tail : List UInt8) : Char :=
  let high :=
    match tail.length with
    | 0 => lead.toNat
    | 1 => lead.toNat % 32
    | 2 => lead.toNat % 16
    | _ => lead.toNat % 8
  Char.ofNat (tail.foldl (fun value byte => value * 64 + byte.toNat % 64) high)

/-- A part of a sequence of bytes. -/
inductive Piece where
  | whole (bytes : List UInt8) (char : Char)
  /-- Bytes that start no character together with what follows. -/
  | malformed (bytes : List UInt8)
  /-- Bytes that start a character and end before it does. -/
  | truncated (bytes : List UInt8)
deriving DecidableEq

namespace Piece

/-- The bytes of a piece. -/
def bytes : Piece → List UInt8
  | whole bytes _ | malformed bytes | truncated bytes => bytes

/-- The character that stands for broken bytes. -/
def replacement : Char := '\ufffd'

/-- The character that a piece is read as. -/
def char : Piece → Char
  | whole _ char => char
  | malformed _ | truncated _ => replacement

/-- Whether a piece is no character. -/
def isBroken : Piece → Bool
  | whole _ _ => false
  | malformed _ | truncated _ => true

end Piece

/-- The first piece of bytes that start with `lead`. -/
def first (lead : UInt8) (rest : List UInt8) : Piece :=
  match continuations? lead with
  | none => .malformed [lead]
  | some ranges =>
      let tail := following ranges rest
      if tail.length = ranges.length then .whole (lead :: tail) (assemble lead tail)
      else if rest.drop tail.length = [] then .truncated (lead :: tail)
      else .malformed (lead :: tail)

/-- The pieces of a sequence of bytes. -/
def pieces : List UInt8 → List Piece
  | [] => []
  | lead :: rest =>
      let piece := first lead rest
      piece :: pieces (rest.drop (piece.bytes.length - 1))
termination_by bytes => bytes.length
decreasing_by
  rw [List.length_drop, List.length_cons]
  omega

theorem following_append_drop (ranges : List ByteRange) (bytes : List UInt8) :
    following ranges bytes ++ bytes.drop (following ranges bytes).length = bytes := by
  fun_induction following ranges bytes <;> simp_all

theorem bytes_first_append_drop (lead : UInt8) (rest : List UInt8) :
    (first lead rest).bytes ++ rest.drop ((first lead rest).bytes.length - 1) = lead :: rest := by
  unfold first
  split
  · simp [Piece.bytes]
  · next ranges _ =>
      have whole := following_append_drop ranges rest
      dsimp only
      repeat' split
      all_goals simpa [Piece.bytes] using whole

/-- No byte is lost and none is added. -/
theorem flatten_bytes_pieces (bytes : List UInt8) :
    ((pieces bytes).map Piece.bytes).flatten = bytes := by
  fun_induction pieces bytes with
  | case1 => rfl
  | case2 lead rest piece ih =>
      simpa [piece, ih] using bytes_first_append_drop lead rest

end BooleanLexer.Utf8
