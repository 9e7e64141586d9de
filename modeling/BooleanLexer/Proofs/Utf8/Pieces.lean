/-
# BooleanLexer.Proofs.Utf8.Pieces -- what bytes are divided into

A piece is either a character in its own bytes, or it is broken (`Piece.Sound`).  A broken piece
has one to three bytes, and no byte of it is ASCII, so it never takes a letter, an operator, a
bracket or a blank with it.

Where a broken piece stands no character starts, and the piece is as long as it can be: the
longest run of bytes that some character starts with, or one byte where there is no such run.
Unicode calls that a maximal subpart (`maximalSubpart_first`).
-/
import BooleanLexer.Proofs.Utf8.Characters
import Mathlib.Order.Bounds.Basic

namespace BooleanLexer.Utf8

set_option autoImplicit false

/-! ## The table of continuations -/

theorem le_of_continuations?_eq_none {lead : UInt8} (none : continuations? lead = none) :
    0x80 ≤ lead.toNat := by
  by_contra ascii
  rw [continuations?_eq, if_pos (by omega)] at none
  cases none

/-- No range is empty, and all hold bytes that only continue a character. -/
theorem bounds_of_mem_continuations? {lead : UInt8} {ranges : List ByteRange}
    (asked : continuations? lead = some ranges) {range : ByteRange} (mem : range ∈ ranges) :
    0x80 ≤ range.low.toNat ∧ range.low.toNat ≤ range.high.toNat ∧ range.high.toNat ≤ 0xbf := by
  rcases continuations?_cases asked with ⟨-, rfl⟩ | ⟨-, -, -, bounds⟩
  · cases mem
  · exact bounds range mem

/-! ## Bytes that follow -/

theorem length_following_le (ranges : List ByteRange) (bytes : List UInt8) :
    (following ranges bytes).length ≤ ranges.length := by
  fun_induction following ranges bytes with
  | case1 range ranges byte bytes inside ih => exact Nat.succ_le_succ ih
  | case2 => exact Nat.zero_le _
  | case3 => exact Nat.zero_le _

theorem exists_of_mem_following {ranges : List ByteRange} {bytes : List UInt8} {byte : UInt8}
    (mem : byte ∈ following ranges bytes) : ∃ range ∈ ranges, range.contains byte = true := by
  fun_induction following ranges bytes with
  | case1 range ranges first bytes inside ih =>
      rcases List.mem_cons.mp mem with rfl | mem
      · exact ⟨range, List.mem_cons_self, inside⟩
      · obtain ⟨range', listed, inside'⟩ := ih mem
        exact ⟨range', List.mem_cons_of_mem range listed, inside'⟩
  | case2 => cases mem
  | case3 => cases mem

/-- Some bytes follow that fit, and the least bytes of the ranges that are left complete them. -/
theorem fits_following_append {ranges : List ByteRange}
    (nonempty : ∀ range ∈ ranges, range.low.toNat ≤ range.high.toNat) (bytes : List UInt8) :
    Fits ranges (following ranges bytes ++
      (ranges.drop (following ranges bytes).length).map ByteRange.low) := by
  have least : ∀ ranges : List ByteRange,
      (∀ range ∈ ranges, range.low.toNat ≤ range.high.toNat) →
        Fits ranges (ranges.map ByteRange.low) := by
    intro ranges nonempty
    rw [Fits, List.forall₂_map_right_iff, List.forall₂_same]
    intro range mem
    exact (range.contains_iff range.low).mpr ⟨Nat.le_refl _, nonempty range mem⟩
  fun_induction following ranges bytes with
  | case1 range ranges byte bytes inside ih =>
      exact .cons inside (ih fun range' mem => nonempty range' (List.mem_cons_of_mem range mem))
  | case2 => exact least _ nonempty
  | case3 => exact least _ nonempty

/-- No more bytes follow than that. -/
theorem length_le_length_following {ranges : List ByteRange} {tail front bytes : List UInt8}
    (fits : Fits ranges tail) (of_tail : front <+: tail) (of_bytes : front <+: bytes) :
    front.length ≤ (following ranges bytes).length := by
  induction fits generalizing front bytes with
  | nil => rw [List.prefix_nil.mp of_tail]; exact Nat.zero_le _
  | @cons range byte ranges tail inside _ ih =>
      cases front with
      | nil => exact Nat.zero_le _
      | cons first front =>
          obtain ⟨rfl, of_rest⟩ := List.cons_prefix_cons.mp of_tail
          obtain ⟨rest, rfl⟩ := of_bytes
          rw [List.cons_append, following, if_pos inside]
          exact Nat.succ_le_succ (ih of_rest (List.prefix_append front rest))

/-! ## One piece -/

/-- What a piece is: a character in its own bytes, or a few bytes of which none is ASCII. -/
inductive Piece.Sound : Piece → Prop where
  | whole (c : Char) : Sound (.whole (String.utf8EncodeChar c) c)
  | broken {piece : Piece} : piece.isBroken = true → 0 < piece.bytes.length →
      piece.bytes.length ≤ 3 → (∀ byte ∈ piece.bytes, 0x80 ≤ byte.toNat) → Sound piece

/-- A broken first piece is one byte that leads no character, or a lead byte and fewer bytes than
it asks for. -/
theorem broken_first_cases {lead : UInt8} {rest : List UInt8}
    (broken : (first lead rest).isBroken = true) :
    (continuations? lead = none ∧ (first lead rest).bytes = [lead]) ∨
      ∃ ranges, continuations? lead = some ranges ∧
        (first lead rest).bytes = lead :: following ranges rest ∧
        (following ranges rest).length < ranges.length := by
  unfold first at broken ⊢
  cases asked : continuations? lead with
  | none => exact .inl ⟨rfl, rfl⟩
  | some ranges =>
      right
      have bounded := length_following_le ranges rest
      rw [asked] at broken
      dsimp only at broken ⊢
      by_cases full : (following ranges rest).length = ranges.length
      · rw [if_pos full] at broken
        cases broken
      · rw [if_neg full]
        exact ⟨ranges, rfl, by split <;> rfl, by omega⟩

theorem Piece.Sound.length_pos {piece : Piece} (sound : piece.Sound) : 0 < piece.bytes.length := by
  cases sound with
  | whole c =>
      rw [bytes, String.length_utf8EncodeChar]
      exact c.utf8Size_pos
  | broken _ pos => exact pos

theorem sound_first (lead : UInt8) (rest : List UInt8) : (first lead rest).Sound := by
  cases broken : (first lead rest).isBroken with
  | false =>
      cases found : first lead rest with
      | whole bytes c =>
          obtain ⟨rfl, -⟩ := (first_eq_whole_iff lead rest bytes c).mp found
          exact .whole c
      | malformed bytes => rw [found] at broken; cases broken
      | truncated bytes => rw [found] at broken; cases broken
  | true =>
      rcases broken_first_cases broken with ⟨none, bytes⟩ | ⟨ranges, asked, bytes, short⟩
      · refine .broken broken ?_ ?_ ?_ <;> rw [bytes]
        · exact Nat.one_pos
        · rw [List.length_singleton]
          decide
        · simpa using le_of_continuations?_eq_none none
      · rcases continuations?_cases asked with ⟨-, rfl⟩ | ⟨no_ascii, -, bounded, bounds⟩
        · cases short
        · refine .broken broken ?_ ?_ ?_ <;> rw [bytes]
          · exact Nat.succ_pos _
          · rw [List.length_cons]
            omega
          · refine List.forall_mem_cons.mpr ⟨no_ascii, fun byte mem => ?_⟩
            obtain ⟨range, listed, inside⟩ := exists_of_mem_following mem
            have := bounds range listed
            have := (range.contains_iff byte).mp inside
            omega

/-! ## Maximal subparts -/

/-- Some bytes that a character starts with. -/
def Opens (bytes : List UInt8) : Prop := ∃ c, bytes <+: String.utf8EncodeChar c

/-- Whether the first bytes, as many as `size`, are replaced as one: no character starts with
them, and they are the most of which one does, or else a single byte. -/
structure MaximalSubpart (bytes : List UInt8) (size : Nat) : Prop where
  no_character : ∀ c, ¬ StartsWith bytes c
  isGreatest : IsGreatest {n | n ≤ bytes.length ∧ (n = 1 ∨ Opens (bytes.take n))} size

/-- A lead byte and the bytes that follow it start a character. -/
theorem opens_following {lead : UInt8} {ranges : List ByteRange}
    (asked : continuations? lead = some ranges) (rest : List UInt8) :
    Opens (lead :: following ranges rest) := by
  have fits := fits_following_append
    (fun range mem => (bounds_of_mem_continuations? asked mem).2.1) rest
  have encoded := encode_of_completes ⟨ranges, asked, fits⟩
  exact ⟨_, by rw [encoded]; exact List.prefix_append (lead :: following ranges rest) _⟩

/-- If more than one byte starts a character, then so does the lead byte, and the others follow
it. -/
theorem exists_of_opens_take {lead : UInt8} {rest : List UInt8} {n : Nat}
    (opens : Opens ((lead :: rest).take (n + 1))) :
    ∃ ranges, continuations? lead = some ranges ∧
      (rest.take n).length ≤ (following ranges rest).length := by
  obtain ⟨c, starts⟩ := opens
  obtain ⟨lead', tail, encoded, ⟨ranges, asked, fits⟩, -⟩ := exists_completes c
  rw [encoded, List.take_succ_cons] at starts
  obtain ⟨rfl, of_tail⟩ := List.cons_prefix_cons.mp starts
  exact ⟨ranges, asked, length_le_length_following fits of_tail (List.take_prefix n rest)⟩

theorem maximalSubpart_first {lead : UInt8} {rest : List UInt8}
    (broken : (first lead rest).isBroken = true) :
    MaximalSubpart (lead :: rest) (first lead rest).bytes.length := by
  refine ⟨fun c starts => ?_, ⟨?_, ?_⟩, ?_⟩
  · rw [(startsWith_iff lead rest c).mp starts] at broken
    cases broken
  · have whole := congrArg List.length (bytes_first_append_drop lead rest)
    rw [List.length_append] at whole
    omega
  · rcases broken_first_cases broken with ⟨-, bytes⟩ | ⟨ranges, asked, bytes, -⟩
    · exact .inl (by rw [bytes]; rfl)
    · right
      have whole := bytes_first_append_drop lead rest
      rw [bytes] at whole ⊢
      rw [← whole, List.take_left]
      exact opens_following asked rest
  · rintro n ⟨bounded, rfl | opens⟩
    · exact (sound_first lead rest).length_pos
    · cases n with
      | zero => exact Nat.zero_le _
      | succ n =>
          obtain ⟨ranges, asked, short⟩ := exists_of_opens_take opens
          rw [List.length_cons] at bounded
          rw [List.length_take] at short
          rcases broken_first_cases broken with ⟨none, -⟩ | ⟨ranges', asked', bytes, -⟩
          · rw [none] at asked
            cases asked
          · rw [asked'] at asked
            cases asked
            rw [bytes, List.length_cons]
            omega

/-! ## All pieces -/

theorem sound_of_mem_pieces {bytes : List UInt8} {piece : Piece} (mem : piece ∈ pieces bytes) :
    piece.Sound := by
  fun_induction pieces bytes with
  | case1 => cases mem
  | case2 lead rest next ih =>
      rcases List.mem_cons.mp mem with rfl | mem
      · exact sound_first lead rest
      · exact ih mem

/-- Behind some pieces, bytes are divided as if there were no bytes in front. -/
theorem pieces_drop {bytes : List UInt8} {front back : List Piece}
    (divided : pieces bytes = front ++ back) :
    pieces (bytes.drop (front.flatMap Piece.bytes).length) = back := by
  induction front generalizing bytes with
  | nil => exact divided
  | cons piece front ih =>
      cases bytes with
      | nil => rw [pieces] at divided; cases divided
      | cons lead rest =>
          rw [pieces] at divided
          obtain ⟨rfl, later⟩ := List.cons.inj divided
          have pos := (sound_first lead rest).length_pos
          have passed : (first lead rest).bytes.length + (front.flatMap Piece.bytes).length =
              (first lead rest).bytes.length - 1 + (front.flatMap Piece.bytes).length + 1 := by
            omega
          rw [List.flatMap_cons, List.length_append, passed, List.drop_succ_cons, ← List.drop_drop,
            ih later]

end BooleanLexer.Utf8
