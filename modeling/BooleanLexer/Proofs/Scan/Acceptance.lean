/-
# BooleanLexer.Proofs.Scan.Acceptance -- the bytes that scan without an error

A byte is accepted if it writes a letter, a blank or a mark.  Decoding changes the
length of what it repairs, but up to the first byte that is not accepted every byte is
one character of one byte, so there the offsets in the text are those in the bytes.
At that byte either a character starts that no token holds, or none starts at all and
the replacement character stands for it; both are unexpected.

`error?_decode_iff` says for any bytes whether a scan of them fails, where, and at
which character, and that this is the failure a run ends with.
-/
import BooleanLexer.Proofs.Item.Errors
import BooleanLexer.Proofs.Utf8.Characters
import BooleanLexer.Scan.Run
import Mathlib.Order.Bounds.Basic

namespace BooleanLexer

set_option autoImplicit false

namespace Utf8

/-- The bytes of `|+^&*!~()`. -/
def markBytes : List UInt8 := [0x7c, 0x2b, 0x5e, 0x26, 0x2a, 0x21, 0x7e, 0x28, 0x29]

/-- A byte that writes a letter, a blank or a mark. -/
def Accepted (byte : UInt8) : Prop :=
  (0x41 ≤ byte ∧ byte ≤ 0x5a) ∨ (0x61 ≤ byte ∧ byte ≤ 0x7a) ∨
    (0x09 ≤ byte ∧ byte ≤ 0x0d) ∨ byte = 0x20 ∨ byte ∈ markBytes

instance (byte : UInt8) : Decidable (Accepted byte) := inferInstanceAs (Decidable (_ ∨ _))

/-- The indices of the bytes that are not accepted. -/
def rejected (bytes : List UInt8) : Set Nat :=
  {index | ∃ byte, bytes[index]? = some byte ∧ ¬ Accepted byte}

theorem accepted_iff_ofNat (value : Nat) (small : value < 256) :
    Accepted (.ofNat value) ↔ value ≤ 0x7f ∧ Text.IsExpected (Char.ofNat value) := by
  revert value
  decide +kernel

/-- The accepted bytes are those of the expected characters. -/
theorem accepted_iff (byte : UInt8) :
    Accepted byte ↔ byte.toNat ≤ 0x7f ∧ Text.IsExpected (Char.ofNat byte.toNat) := by
  have same := accepted_iff_ofNat byte.toNat byte.toNat_lt
  rwa [UInt8.ofNat_toNat] at same

theorem lt_128_of_isExpected {c : Char} (expected : Text.IsExpected c) : c.toNat < 128 := by
  rcases expected with blank | letter | mark
  · have small : Text.blanks.all (fun d => d.toNat < 128) = true := by decide
    exact of_decide_eq_true (List.all_eq_true.mp small c blank)
  · exact Text.lt_128_of_isLetter letter
  · have small : Text.marks.all (fun d => d.toNat < 128) = true := by decide
    exact of_decide_eq_true (List.all_eq_true.mp small c mark)

theorem not_isExpected_replacement : ¬ Text.IsExpected Piece.replacement := by decide

/-- A byte that is not accepted is read as a character that is not expected. -/
theorem not_isExpected_char_first {byte : UInt8} (bad : ¬ Accepted byte) (rest : List UInt8) :
    ¬ Text.IsExpected (first byte rest).char := by
  cases found : first byte rest with
  | whole bytes c =>
      intro expected
      have ascii : c.toNat < 128 := lt_128_of_isExpected expected
      obtain ⟨rfl, behind, written⟩ := (first_eq_whole_iff byte rest bytes c).mp found
      have single : String.utf8EncodeChar c = [.ofNat c.toNat] :=
        if_pos (Nat.le_of_lt_succ ascii)
      rw [single, List.singleton_append] at written
      obtain ⟨rfl, -⟩ := List.cons.inj written
      apply bad
      rw [accepted_iff_ofNat c.toNat (by omega), Char.ofNat_toNat]
      exact ⟨Nat.le_of_lt_succ ascii, expected⟩
  | malformed bytes => exact not_isExpected_replacement
  | truncated bytes => exact not_isExpected_replacement

theorem unexpected_decode_append (position : Nat) {front : List UInt8}
    (accepted : ∀ byte ∈ front, Accepted byte) (rest : List UInt8) :
    Text.unexpected position (decode (front ++ rest)) =
      Text.unexpected (position + front.length) (decode rest) := by
  induction front generalizing position with
  | nil => rfl
  | cons byte front ih =>
      obtain ⟨ascii, expected⟩ := (accepted_iff byte).mp (accepted byte List.mem_cons_self)
      have narrow : (Char.ofNat byte.toNat).utf8Size = 1 :=
        Text.utf8Size_of_lt_128 (lt_128_of_isExpected expected)
      rw [List.cons_append, decode_cons_of_ascii ascii,
        Text.unexpected_cons_of_isExpected position expected, narrow,
        ih (position + 1) (fun b mem => accepted b (List.mem_cons_of_mem byte mem)),
        List.length_cons, Nat.add_assoc, Nat.add_comm 1]

/-- Either all bytes are accepted, or there is a first one that is not. -/
theorem accepted_or_exists_append (bytes : List UInt8) :
    (∀ byte ∈ bytes, Accepted byte) ∨ ∃ front byte rest, bytes = front ++ byte :: rest ∧
      (∀ b ∈ front, Accepted b) ∧ ¬ Accepted byte := by
  induction bytes with
  | nil => exact Or.inl (by simp)
  | cons byte bytes ih =>
      by_cases good : Accepted byte
      · rcases ih with all | ⟨front, bad, rest, rfl, accepted, fails⟩
        · exact Or.inl (List.forall_mem_cons.mpr ⟨good, all⟩)
        · exact Or.inr ⟨byte :: front, bad, rest, rfl,
            List.forall_mem_cons.mpr ⟨good, accepted⟩, fails⟩
      · exact Or.inr ⟨[], byte, bytes, rfl, by simp, good⟩

theorem isLeast_length_rejected {front : List UInt8} {byte : UInt8} (rest : List UInt8)
    (accepted : ∀ b ∈ front, Accepted b) (bad : ¬ Accepted byte) :
    IsLeast (rejected (front ++ byte :: rest)) front.length := by
  constructor
  · exact ⟨byte, by simp, bad⟩
  · rintro index ⟨b, at_index, fails⟩
    by_contra before
    rw [List.getElem?_append_left (Nat.lt_of_not_le before)] at at_index
    exact fails (accepted b (List.mem_of_getElem? at_index))

end Utf8

namespace Scan

open Utf8 (Accepted Shows rejected decode)

theorem error?_of_accepted {bytes : List UInt8} (accepted : ∀ byte ∈ bytes, Accepted byte) :
    (Listing.ofText (decode bytes)).error? = none := by
  have ends := Utf8.unexpected_decode_append 0 accepted []
  have nothing : decode [] = [] := by simp [decode, Utf8.pieces]
  rw [List.append_nil, nothing] at ends
  rw [Listing.error?_ofText, ends]
  rfl

theorem error?_of_append {front : List UInt8} {byte : UInt8} (rest : List UInt8)
    (accepted : ∀ b ∈ front, Accepted b) (bad : ¬ Accepted byte) :
    (Listing.ofText (decode (front ++ byte :: rest))).error? =
      some ⟨(Utf8.first byte rest).char, front.length⟩ := by
  have strange := Utf8.not_isExpected_char_first bad rest
  rw [Listing.error?_ofText, Utf8.unexpected_decode_append 0 accepted, Utf8.decode_cons,
    Text.unexpected_cons_of_not_isExpected _ strange, List.head?_cons, Nat.zero_add]

theorem error?_eq_none_iff (bytes : List UInt8) :
    (Listing.ofText (decode bytes)).error? = none ↔ ∀ byte ∈ bytes, Accepted byte := by
  constructor
  · intro clean
    rcases Utf8.accepted_or_exists_append bytes with all | ⟨front, byte, rest, rfl, accepted, bad⟩
    · exact all
    · rw [error?_of_append rest accepted bad] at clean
      cases clean
  · exact error?_of_accepted

theorem error?_eq_some_iff (bytes : List UInt8) (error : Unexpected) :
    (Listing.ofText (decode bytes)).error? = some error ↔
      IsLeast (rejected bytes) error.offset ∧
        Shows (bytes.drop error.offset) error.character := by
  rcases Utf8.accepted_or_exists_append bytes with all | ⟨front, byte, rest, rfl, accepted, bad⟩
  · rw [error?_of_accepted all]
    constructor
    · intro found
      cases found
    · rintro ⟨⟨⟨byte, at_index, fails⟩, -⟩, -⟩
      exact absurd (all byte (List.mem_of_getElem? at_index)) fails
  · have least := Utf8.isLeast_length_rejected rest accepted bad
    rw [error?_of_append rest accepted bad, Option.some_inj]
    constructor
    · rintro rfl
      refine ⟨least, ?_⟩
      rw [List.drop_left, Utf8.shows_iff]
    · rintro ⟨least', shown⟩
      have same : error.offset = front.length := least'.unique least
      rw [same, List.drop_left, Utf8.shows_iff] at shown
      cases error
      simp_all

/-- A run that reads bytes ends with the error of their scan, unless it cannot make its
output file. -/
theorem failure?_run {request : Request} {world : World} {bytes : List UInt8}
    (reads : request.origin.read world = .ok (.ofBytes bytes)) :
    (run request world).failure? =
        (Listing.ofText (decode bytes)).error?.map Failure.unexpected ∨
      ∃ path fault, request.output? = some path ∧
        world.files.write path ((Source.ofBytes bytes).scan request.format).report =
          .error fault ∧
        (run request world).failure? = some (.unreachable path fault) := by
  unfold run
  rw [reads]
  dsimp only
  cases request.output? with
  | none => exact Or.inl rfl
  | some path =>
      dsimp only
      split
      · exact Or.inl rfl
      · next fault refused => exact Or.inr ⟨path, fault, rfl, refused, rfl⟩

theorem error?_decode_iff (bytes : List UInt8) :
    ((Listing.ofText (decode bytes)).error? = none ↔ ∀ byte ∈ bytes, Accepted byte) ∧
    (∀ error, (Listing.ofText (decode bytes)).error? = some error ↔
      IsLeast (rejected bytes) error.offset ∧
        Shows (bytes.drop error.offset) error.character) ∧
    ∀ request world, request.origin.read world = .ok (.ofBytes bytes) →
      (run request world).failure? =
          (Listing.ofText (decode bytes)).error?.map Failure.unexpected ∨
        ∃ path fault, request.output? = some path ∧
          world.files.write path ((Source.ofBytes bytes).scan request.format).report =
            .error fault ∧
          (run request world).failure? = some (.unreachable path fault) :=
  ⟨error?_eq_none_iff bytes, error?_eq_some_iff bytes, fun _ _ => failure?_run⟩

/-- A letter, a blank, two bytes of a character that needs three, and a question mark. -/
theorem failure?_run_broken_character :
    (run ⟨.standardInput, none, .text⟩
      ⟨⟨fun _ => none, []⟩, [0x61, 0x20, 0xe2, 0x82, 0x3f]⟩).failure? =
        some (.unexpected ⟨'\ufffd', 2⟩) := by
  obtain ⟨-, located, ran⟩ := error?_decode_iff [0x61, 0x20, 0xe2, 0x82, 0x3f]
  have least : IsLeast (rejected ([0x61, 0x20] ++ [0xe2, 0x82, 0x3f])) 2 :=
    Utf8.isLeast_length_rejected [0x82, 0x3f] (by decide +kernel) (by decide)
  have shown : Shows [0xe2, 0x82, 0x3f] '\ufffd' :=
    (Utf8.shows_iff 0xe2 [0x82, 0x3f] '\ufffd').mpr (by decide)
  have error := (located ⟨'\ufffd', 2⟩).mpr ⟨least, shown⟩
  rcases ran ⟨.standardInput, none, .text⟩ ⟨⟨fun _ => none, []⟩, _⟩ rfl with
    same | ⟨path, fault, replaced, -⟩
  · rw [same, error, Option.map_some]
  · cases replaced

end Scan

end BooleanLexer
