/-
# BooleanLexer.Proofs.Scan.Warning -- the warning about bytes that are no text

Bytes that are no text are decoded with a warning.  It names the place at which they stop being
one, and whether they are invalid there or end too early.  Decoding puts the replacement character
at that place (`Utf8.exists_decode_of_fault?`), and scanning finds it there as a token by itself
(`Item.mem_readAll_replacement`).
-/
import BooleanLexer.Proofs.Item.Pairing
import BooleanLexer.Proofs.Utf8.Faults
import BooleanLexer.Scan.Run

namespace BooleanLexer

set_option autoImplicit false

open Text (byteSize)
open Utf8 (Fault Piece WellFormed)

/-- The replacement character is a token by itself, whatever stands on its two sides. -/
theorem Item.mem_readAll_replacement (front back : Text) :
    ⟨.plain .unknown Piece.replacement, ⟨byteSize front, byteSize front + 3⟩⟩ ∈
      readAll 0 (front ++ Piece.replacement :: back) := by
  have token : Token.leading Piece.replacement = .plain .unknown Piece.replacement := by decide
  have size : Piece.replacement.utf8Size = 3 := by decide
  have solid : Text.isBlank Piece.replacement = false := by decide
  have single := filter_readAll_single front back solid (by decide) (by decide)
  rw [token, size] at single
  have mem := List.mem_singleton_self
    (⟨.plain .unknown Piece.replacement, ⟨byteSize front, byteSize front + 3⟩⟩ : Item)
  rw [← single] at mem
  exact (List.mem_filter.mp mem).1

namespace Scan

/-- The record of a fault. -/
def warning (fault : Fault) : Log.Record :=
  ⟨.warn, "input is not valid UTF-8: ".toList ++ fault.message⟩

theorem warning_injective : Function.Injective warning := by
  intro fault fault' same
  have texts : _ ++ fault.message = _ ++ fault'.message := congrArg Log.Record.text same
  exact Fault.message_injective (List.append_cancel_left texts)

theorem decodingLog_eq (bytes : List UInt8) :
    decodingLog bytes = (Utf8.fault? bytes).toList.map warning := rfl

/-- Decoding leaves no record for the bytes of a text. -/
theorem decodingLog_eq_nil_iff (bytes : List UInt8) :
    decodingLog bytes = [] ↔ WellFormed bytes := by
  rw [decodingLog_eq, WellFormed, ← Utf8.fault?_eq_none_iff]
  simp

theorem decodingLog_eq_singleton_iff (bytes : List UInt8) (fault : Fault) :
    decodingLog bytes = [warning fault] ↔ Utf8.fault? bytes = some fault := by
  rw [decodingLog_eq]
  cases Utf8.fault? bytes with
  | none => simp
  | some fault' => simp [warning_injective.eq_iff]

/-- **The warning about bytes that are no text names the place that decoding repairs.**  There is a
warning exactly if the bytes are no text, and only one.  In front of its place is the longest text
that the bytes start with.  The decoded text goes on with the replacement character; behind that,
it is what the bytes behind the maximal subpart give, or nothing if the bytes end within a
character, and the warning tells which.  Scanning finds the replacement character at that place. -/
theorem warning_names_repair (bytes : List UInt8) :
    let source := Source.ofBytes bytes
    (source.log = [] ↔ WellFormed bytes) ∧
      (source.log = [] ∨ ∃ fault, source.log = [warning fault]) ∧
      ∀ fault, source.log = [warning fault] →
        IsGreatest {n | n ≤ bytes.length ∧ WellFormed (bytes.take n)} fault.index ∧
        (∃ front behind, bytes.take fault.index = Utf8.encode front ∧
          source.text = front ++ Piece.replacement :: behind ∧ fault.Explains bytes behind) ∧
        ⟨.plain .unknown Piece.replacement, ⟨fault.index, fault.index + 3⟩⟩ ∈
          (Listing.ofText source.text).items := by
  intro source
  refine ⟨decodingLog_eq_nil_iff bytes, ?_, ?_⟩
  · show decodingLog bytes = [] ∨ ∃ fault, decodingLog bytes = [warning fault]
    rw [decodingLog_eq]
    cases Utf8.fault? bytes with
    | none => exact .inl rfl
    | some fault => exact .inr ⟨fault, rfl⟩
  · intro fault warned
    have found := (decodingLog_eq_singleton_iff bytes fault).mp warned
    obtain ⟨greatest, front, behind, taken, decoded, explains⟩ :=
      Utf8.exists_decode_of_fault? found
    refine ⟨greatest, ⟨front, behind, taken, decoded, explains⟩, ?_⟩
    have place : fault.index = byteSize front := by
      rw [← Utf8.length_encode, ← taken, List.length_take_of_le greatest.1.1]
    have text : source.text = front ++ Piece.replacement :: behind := decoded
    have items : (Listing.ofText source.text).items = Item.readAll 0 source.text := rfl
    rw [items, text, place]
    exact Item.mem_readAll_replacement front behind

/-- A lead byte that the byte behind it cannot follow, and a character that ends too early. -/
theorem warning_names_repair_of_either_kind :
    let invalid : List UInt8 := [0x61, 0xf4, 0x90, 0x62]
    let incomplete : List UInt8 := [0x61, 0xe2, 0x82]
    ((Source.ofBytes invalid).log = [warning (.invalid 1 1)] ∧
      Utf8.MaximalSubpart [0xf4, 0x90, 0x62] 1 ∧ ¬ Utf8.Unfinished [0xf4, 0x90, 0x62] ∧
      ∃ front, [0x61] = Utf8.encode front ∧
        Utf8.decode invalid = front ++ Piece.replacement :: Utf8.decode [0x90, 0x62]) ∧
    (Source.ofBytes incomplete).log = [warning (.incomplete 1)] ∧ Utf8.Unfinished [0xe2, 0x82] ∧
      ⟨.plain .unknown Piece.replacement, ⟨1, 4⟩⟩ ∈
        (Listing.ofText (Utf8.decode incomplete)).items := by
  intro invalid incomplete
  have warned : (Source.ofBytes invalid).log = [warning (.invalid 1 1)] := by
    apply (decodingLog_eq_singleton_iff invalid _).mpr
    decide +kernel
  have warned' : (Source.ofBytes incomplete).log = [warning (.incomplete 1)] := by
    apply (decodingLog_eq_singleton_iff incomplete _).mpr
    decide +kernel
  obtain ⟨-, -, named⟩ := warning_names_repair invalid
  obtain ⟨-, -, named'⟩ := warning_names_repair incomplete
  obtain ⟨-, ⟨front, behind, taken, decoded, maximal, unfinished, rfl⟩, -⟩ := named _ warned
  obtain ⟨-, ⟨-, -, -, -, unfinished', -⟩, found⟩ := named' _ warned'
  exact ⟨⟨warned, maximal, unfinished, front, taken, decoded⟩, warned', unfinished', found⟩

end Scan

end BooleanLexer
