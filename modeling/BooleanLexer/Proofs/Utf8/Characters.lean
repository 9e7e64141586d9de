/-
# BooleanLexer.Proofs.Utf8.Characters -- the bytes of one character

The table of continuation ranges is the grammar of characters: a lead byte that is
completed by the bytes behind it stands for a character whose own bytes these are
(`encode_of_completes`), and the bytes of every character are of this form
(`exists_completes`).  The table narrows the first range of four lead bytes; in terms
of the number that the bytes stand for, that leaves out what has a shorter form, the
surrogates and what is too large (`completes_two_iff`, `completes_three_iff`).

So the first piece of some bytes is whole exactly if a character is written there
(`first_eq_whole_iff`), and no character is written where a broken piece starts.
-/
import BooleanLexer.Utf8.Decode
import Mathlib.Data.List.Forall2
import Mathlib.Tactic.SplitIfs

namespace BooleanLexer.Utf8

set_option autoImplicit false

theorem ByteRange.contains_iff (range : ByteRange) (byte : UInt8) :
    range.contains byte = true ↔
      range.low.toNat ≤ byte.toNat ∧ byte.toNat ≤ range.high.toNat := by
  simp [contains, UInt8.le_iff_toNat_le]

/-! ## Following bytes -/

/-- Each of the bytes is in its range. -/
def Fits (ranges : List ByteRange) (tail : List UInt8) : Prop :=
  List.Forall₂ (fun range byte => range.contains byte = true) ranges tail

theorem following_append_of_fits {ranges : List ByteRange} {tail : List UInt8}
    (fits : Fits ranges tail) (rest : List UInt8) : following ranges (tail ++ rest) = tail := by
  induction fits with
  | nil => simp [following]
  | cons inside _ ih => rw [List.cons_append, following, if_pos inside, ih]

theorem fits_following {ranges : List ByteRange} {bytes : List UInt8}
    (full : (following ranges bytes).length = ranges.length) :
    Fits ranges (following ranges bytes) := by
  fun_induction following ranges bytes with
  | case1 range ranges byte bytes inside ih => exact .cons inside (ih (Nat.succ.inj full))
  | case2 range ranges byte bytes outside => simp at full
  | case3 ranges bytes =>
      cases ranges with
      | nil => exact .nil
      | cons range ranges => simp at full

/-- The bytes behind a lead byte are those that it asks for, no more and no fewer. -/
def Completes (lead : UInt8) (tail : List UInt8) : Prop :=
  ∃ ranges, continuations? lead = some ranges ∧ Fits ranges tail

theorem first_of_completes {lead : UInt8} {tail : List UInt8} (completes : Completes lead tail)
    (rest : List UInt8) :
    first lead (tail ++ rest) = .whole (lead :: tail) (assemble lead tail) := by
  obtain ⟨ranges, asked, fits⟩ := completes
  have full : tail.length = ranges.length := fits.length_eq.symm
  simp only [first, asked, following_append_of_fits fits, if_pos full]

theorem completes_of_first {lead : UInt8} {rest bytes : List UInt8} {c : Char}
    (found : first lead rest = .whole bytes c) :
    ∃ tail, Completes lead tail ∧ bytes = lead :: tail ∧ c = assemble lead tail := by
  unfold first at found
  split at found
  · cases found
  · next ranges asked =>
      dsimp only at found
      split at found
      · next full =>
          cases found
          exact ⟨_, ⟨ranges, asked, fits_following full⟩, rfl, rfl⟩
      · split at found <;> cases found

/-! ## The table in numbers -/

/-- The number that a lead byte and the bytes behind it stand for. -/
def number (lead : UInt8) : List UInt8 → Nat
  | [] => lead.toNat
  | [b] => lead.toNat % 32 * 64 + b.toNat % 64
  | [b, c] => (lead.toNat % 16 * 64 + b.toNat % 64) * 64 + c.toNat % 64
  | b :: c :: tail =>
      tail.foldl (fun value byte => value * 64 + byte.toNat % 64)
        ((lead.toNat % 8 * 64 + b.toNat % 64) * 64 + c.toNat % 64)

theorem assemble_eq (lead : UInt8) (tail : List UInt8) :
    assemble lead tail = Char.ofNat (number lead tail) := by
  rcases tail with _ | ⟨b, _ | ⟨c, _ | ⟨d, tail⟩⟩⟩ <;> rfl

/-- A byte that only continues a character. -/
def IsTail (byte : UInt8) : Prop := 0x80 ≤ byte.toNat ∧ byte.toNat ≤ 0xbf

theorem continuations?_eq (lead : UInt8) :
    continuations? lead =
      if lead.toNat ≤ 0x7f then some []
      else if lead.toNat ≤ 0xc1 then none
      else if lead.toNat ≤ 0xdf then some [continuation]
      else if lead.toNat = 0xe0 then some [⟨0xa0, 0xbf⟩, continuation]
      else if lead.toNat = 0xed then some [⟨0x80, 0x9f⟩, continuation]
      else if lead.toNat ≤ 0xef then some [continuation, continuation]
      else if lead.toNat = 0xf0 then some [⟨0x90, 0xbf⟩, continuation, continuation]
      else if lead.toNat ≤ 0xf3 then some [continuation, continuation, continuation]
      else if lead.toNat = 0xf4 then some [⟨0x80, 0x8f⟩, continuation, continuation]
      else none := by
  simp only [continuations?, UInt8.le_iff_toNat_le, ← UInt8.toNat_inj, UInt8.reduceToNat]

/-- An ASCII byte asks for nothing.  Any other lead byte asks for one to three bytes; none of their
ranges is empty, and all hold bytes that only continue a character. -/
theorem continuations?_cases {lead : UInt8} {ranges : List ByteRange}
    (asked : continuations? lead = some ranges) :
    (lead.toNat ≤ 0x7f ∧ ranges = []) ∨
      (0x80 ≤ lead.toNat ∧ ranges ≠ [] ∧ ranges.length ≤ 3 ∧
        ∀ range ∈ ranges, 0x80 ≤ range.low.toNat ∧ range.low.toNat ≤ range.high.toNat ∧
          range.high.toNat ≤ 0xbf) := by
  by_cases ascii : lead.toNat ≤ 0x7f
  · rw [continuations?_eq, if_pos ascii] at asked
    cases asked
    exact .inl ⟨ascii, rfl⟩
  · right
    refine ⟨by omega, ?_⟩
    rw [continuations?_eq, if_neg ascii] at asked
    split_ifs at asked <;> cases asked <;> decide

theorem completes_nil_iff (lead : UInt8) : Completes lead [] ↔ lead.toNat ≤ 0x7f := by
  rw [Completes, continuations?_eq]
  split_ifs <;> simp_all [Fits]

theorem completes_one_iff (lead b : UInt8) :
    Completes lead [b] ↔ 0xc2 ≤ lead.toNat ∧ lead.toNat ≤ 0xdf ∧ IsTail b := by
  rw [Completes, continuations?_eq]
  split_ifs <;> simp [Fits, ByteRange.contains_iff, continuation, IsTail] <;> omega

theorem completes_two_iff (lead b c : UInt8) :
    Completes lead [b, c] ↔ 0xe0 ≤ lead.toNat ∧ lead.toNat ≤ 0xef ∧ IsTail b ∧ IsTail c ∧
      0x800 ≤ number lead [b, c] ∧
      ¬ (0xd800 ≤ number lead [b, c] ∧ number lead [b, c] ≤ 0xdfff) := by
  rw [Completes, continuations?_eq]
  split_ifs <;> simp [Fits, ByteRange.contains_iff, continuation, IsTail, number] <;> omega

theorem completes_three_iff (lead b c d : UInt8) :
    Completes lead [b, c, d] ↔ 0xf0 ≤ lead.toNat ∧ lead.toNat ≤ 0xf7 ∧
      IsTail b ∧ IsTail c ∧ IsTail d ∧
      0x10000 ≤ number lead [b, c, d] ∧ number lead [b, c, d] ≤ 0x10ffff := by
  rw [Completes, continuations?_eq]
  split_ifs <;> simp [Fits, ByteRange.contains_iff, continuation, IsTail, number] <;> omega

theorem Completes.length_le {lead : UInt8} {tail : List UInt8}
    (completes : Completes lead tail) : tail.length ≤ 3 := by
  obtain ⟨ranges, asked, fits⟩ := completes
  rw [← fits.length_eq]
  rcases continuations?_cases asked with ⟨-, rfl⟩ | ⟨-, -, bounded, -⟩
  · exact Nat.zero_le _
  · exact bounded

/-! ## The bytes of a character -/

theorem Completes.isValidChar_number {lead : UInt8} {tail : List UInt8}
    (completes : Completes lead tail) : (number lead tail).isValidChar := by
  have short := completes.length_le
  rcases tail with _ | ⟨b, _ | ⟨c, _ | ⟨d, _ | ⟨e, tail⟩⟩⟩⟩
  · have := (completes_nil_iff lead).mp completes
    exact Or.inl (by simp only [number]; omega)
  · have := lead.toNat_lt
    exact Or.inl (by simp only [number]; omega)
  · obtain ⟨-, -, -, -, -, ordinary⟩ := (completes_two_iff lead b c).mp completes
    have : number lead [b, c] < 0x10000 := by simp only [number]; omega
    unfold Nat.isValidChar
    omega
  · obtain ⟨-, -, -, -, -, large, bounded⟩ := (completes_three_iff lead b c d).mp completes
    exact Or.inr ⟨by omega, by omega⟩
  · simp only [List.length_cons] at short
    omega

theorem toNat_assemble {lead : UInt8} {tail : List UInt8} (completes : Completes lead tail) :
    (assemble lead tail).toNat = number lead tail := by
  rw [assemble_eq, Char.ofNat, dif_pos completes.isValidChar_number]
  rfl

/-- The bytes of the character with a given number. -/
def octets (value : Nat) : List UInt8 :=
  if value ≤ 0x7f then [.ofNat value]
  else if value ≤ 0x7ff then [.ofNat (value / 64 % 32 + 0xc0), .ofNat (value % 64 + 0x80)]
  else if value ≤ 0xffff then
    [.ofNat (value / 4096 % 16 + 0xe0), .ofNat (value / 64 % 64 + 0x80),
      .ofNat (value % 64 + 0x80)]
  else
    [.ofNat (value / 262144 % 8 + 0xf0), .ofNat (value / 4096 % 64 + 0x80),
      .ofNat (value / 64 % 64 + 0x80), .ofNat (value % 64 + 0x80)]

theorem encode_eq_octets (c : Char) : String.utf8EncodeChar c = octets c.toNat := rfl

theorem octets_number {lead : UInt8} {tail : List UInt8} (completes : Completes lead tail) :
    octets (number lead tail) = lead :: tail := by
  have short := completes.length_le
  rcases tail with _ | ⟨b, _ | ⟨c, _ | ⟨d, _ | ⟨e, tail⟩⟩⟩⟩
  · have small := (completes_nil_iff lead).mp completes
    simp [octets, number, small]
  · obtain ⟨low, high, b_low, b_high⟩ := (completes_one_iff lead b).mp completes
    have value : number lead [b] = lead.toNat % 32 * 64 + b.toNat % 64 := rfl
    rw [octets, if_neg (by omega), if_pos (by omega)]
    simp [← UInt8.toNat_inj]
    omega
  · obtain ⟨low, high, ⟨b_low, b_high⟩, ⟨c_low, c_high⟩, large, -⟩ :=
      (completes_two_iff lead b c).mp completes
    have value : number lead [b, c] =
      (lead.toNat % 16 * 64 + b.toNat % 64) * 64 + c.toNat % 64 := rfl
    rw [octets, if_neg (by omega), if_neg (by omega), if_pos (by omega)]
    simp [← UInt8.toNat_inj]
    omega
  · obtain ⟨low, high, ⟨b_low, b_high⟩, ⟨c_low, c_high⟩, ⟨d_low, d_high⟩, large, -⟩ :=
      (completes_three_iff lead b c d).mp completes
    have value : number lead [b, c, d] =
      ((lead.toNat % 8 * 64 + b.toNat % 64) * 64 + c.toNat % 64) * 64 + d.toNat % 64 := rfl
    rw [octets, if_neg (by omega), if_neg (by omega), if_neg (by omega)]
    simp [← UInt8.toNat_inj]
    omega
  · simp only [List.length_cons] at short
    omega

/-- What completes a lead byte are the bytes of the character that is assembled. -/
theorem encode_of_completes {lead : UInt8} {tail : List UInt8}
    (completes : Completes lead tail) :
    String.utf8EncodeChar (assemble lead tail) = lead :: tail := by
  rw [encode_eq_octets, toNat_assemble completes, octets_number completes]

theorem exists_completes_octets {value : Nat} (valid : value.isValidChar) :
    ∃ lead tail, octets value = lead :: tail ∧ Completes lead tail ∧
      number lead tail = value := by
  have inside : value < 0xd800 ∨ 0xdfff < value ∧ value < 0x110000 := valid
  unfold octets
  split_ifs
  · refine ⟨_, _, rfl, (completes_nil_iff _).mpr ?_, ?_⟩ <;> simp [number] <;> omega
  · refine ⟨_, _, rfl, (completes_one_iff _ _).mpr ?_, ?_⟩ <;> simp [number, IsTail] <;> omega
  · refine ⟨_, _, rfl, (completes_two_iff _ _ _).mpr ?_, ?_⟩ <;> simp [number, IsTail] <;> omega
  · refine ⟨_, _, rfl, (completes_three_iff _ _ _ _).mpr ?_, ?_⟩ <;>
      simp [number, IsTail] <;> omega

/-- The bytes of any character are a lead byte with what it asks for. -/
theorem exists_completes (c : Char) :
    ∃ lead tail, String.utf8EncodeChar c = lead :: tail ∧ Completes lead tail ∧
      number lead tail = c.toNat :=
  exists_completes_octets c.valid

/-! ## The first piece -/

theorem first_encode (c : Char) {lead : UInt8} {rest behind : List UInt8}
    (written : lead :: rest = String.utf8EncodeChar c ++ behind) :
    first lead rest = .whole (String.utf8EncodeChar c) c := by
  obtain ⟨lead', tail, bytes, completes, value⟩ := exists_completes c
  rw [bytes, List.cons_append] at written
  obtain ⟨rfl, rfl⟩ := List.cons.inj written
  rw [first_of_completes completes, bytes, assemble_eq, value, Char.ofNat_toNat]

/-- The first piece is whole exactly if the bytes start with those of a character. -/
theorem first_eq_whole_iff (lead : UInt8) (rest bytes : List UInt8) (c : Char) :
    first lead rest = .whole bytes c ↔
      bytes = String.utf8EncodeChar c ∧ ∃ behind, lead :: rest = bytes ++ behind := by
  constructor
  · intro found
    obtain ⟨tail, completes, rfl, rfl⟩ := completes_of_first found
    refine ⟨(encode_of_completes completes).symm, rest.drop tail.length, ?_⟩
    have whole := bytes_first_append_drop lead rest
    rw [found] at whole
    simpa [Piece.bytes] using whole.symm
  · rintro ⟨rfl, behind, written⟩
    exact first_encode c written

theorem first_of_ascii {byte : UInt8} (ascii : byte.toNat ≤ 0x7f) (rest : List UInt8) :
    first byte rest = .whole [byte] (Char.ofNat byte.toNat) :=
  first_of_completes ((completes_nil_iff byte).mpr ascii) rest

/-! ## What some bytes show -/

/-- Some bytes start with those of a character. -/
def StartsWith (bytes : List UInt8) (c : Char) : Prop :=
  ∃ behind, bytes = String.utf8EncodeChar c ++ behind

/-- The character that some bytes start with, or the replacement if there is none. -/
def Shows (bytes : List UInt8) (c : Char) : Prop :=
  StartsWith bytes c ∨ (∀ d, ¬ StartsWith bytes d) ∧ c = Piece.replacement

theorem startsWith_iff (lead : UInt8) (rest : List UInt8) (c : Char) :
    StartsWith (lead :: rest) c ↔ first lead rest = .whole (String.utf8EncodeChar c) c := by
  rw [first_eq_whole_iff]
  exact (and_iff_right rfl).symm

/-- Bytes show what their first piece is read as. -/
theorem shows_iff (lead : UInt8) (rest : List UInt8) (c : Char) :
    Shows (lead :: rest) c ↔ c = (first lead rest).char := by
  simp only [Shows, startsWith_iff]
  cases found : first lead rest with
  | whole bytes d =>
      obtain ⟨rfl, -⟩ := (first_eq_whole_iff lead rest bytes d).mp found
      constructor
      · rintro (same | ⟨none_starts, -⟩)
        · exact (Piece.whole.inj same).2.symm
        · exact absurd rfl (none_starts d)
      · rintro rfl
        exact Or.inl rfl
  | malformed bytes => simp [Piece.char]
  | truncated bytes => simp [Piece.char]

theorem decode_nil : decode [] = [] := by
  rw [decode, pieces, List.map_nil]

theorem decode_cons (lead : UInt8) (rest : List UInt8) :
    decode (lead :: rest) =
      (first lead rest).char :: decode (rest.drop ((first lead rest).bytes.length - 1)) := by
  rw [decode, pieces]
  rfl

theorem decode_cons_of_ascii {byte : UInt8} (ascii : byte.toNat ≤ 0x7f) (rest : List UInt8) :
    decode (byte :: rest) = Char.ofNat byte.toNat :: decode rest := by
  rw [decode_cons, first_of_ascii ascii]
  rfl

end BooleanLexer.Utf8
