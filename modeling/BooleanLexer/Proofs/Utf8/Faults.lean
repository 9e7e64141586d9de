/-
# BooleanLexer.Proofs.Utf8.Faults -- where bytes stop being a text

Bytes with a fault are those of a text, and behind it something that starts with a broken piece
(`exists_of_fault?`).  The text in front is as long as it can be (`isGreatest_wellFormed`);
decoding gives it, the replacement character, and what the bytes behind the piece give
(`exists_decode_of_fault?`).

A piece is truncated exactly if its bytes are all that is left and some character goes on from
there (`first_eq_truncated_iff`).  The messages of two faults are different
(`Fault.message_injective`), so a message names the place.
-/
import BooleanLexer.Proofs.Text.Lines
import BooleanLexer.Proofs.Text.Numerals
import BooleanLexer.Proofs.Utf8.RoundTrip

namespace BooleanLexer.Utf8

set_option autoImplicit false

/-! ## The bytes of a text -/

/-- Whether bytes are those of a text. -/
def WellFormed (bytes : List UInt8) : Prop := ∃ text, bytes = encode text

/-- Whether bytes start a character and end before it does. -/
def Unfinished (bytes : List UInt8) : Prop :=
  bytes ≠ [] ∧ ∃ c, bytes <+: String.utf8EncodeChar c ∧ bytes ≠ String.utf8EncodeChar c

theorem encode_append (first second : Text) :
    encode (first ++ second) = encode first ++ encode second :=
  List.flatMap_append

/-- Decoding passes over the bytes of a text. -/
theorem decode_encode_append (text : Text) (bytes : List UInt8) :
    decode (encode text ++ bytes) = text ++ decode bytes := by
  rw [decode, pieces_encode_append, List.map_append, List.map_map, ← decode]
  congr 1
  exact List.map_id' text

/-- Behind the bytes of a text, those of a longer one go on with the bytes of a text. -/
theorem WellFormed.of_encode_append {text : Text} {bytes : List UInt8}
    (formed : WellFormed (encode text ++ bytes)) : WellFormed bytes := by
  obtain ⟨longer, whole⟩ := formed
  have decoded := congrArg decode whole
  rw [decode_encode_append, decode_encode] at decoded
  rw [← decoded, encode_append] at whole
  exact ⟨decode bytes, List.append_cancel_left whole⟩

theorem WellFormed.exists_startsWith {bytes : List UInt8} (formed : WellFormed bytes)
    (nonempty : bytes ≠ []) : ∃ c, StartsWith bytes c := by
  obtain ⟨text, rfl⟩ := formed
  cases text with
  | nil => exact absurd rfl nonempty
  | cons c text => exact ⟨c, encode text, encode_cons c text⟩

/-! ## Truncated pieces -/

/-- A piece is truncated if a character starts with all the bytes that are left, and none of them
completes it. -/
theorem first_eq_truncated_iff (lead : UInt8) (rest bytes : List UInt8) :
    first lead rest = .truncated bytes ↔ bytes = lead :: rest ∧ Unfinished (lead :: rest) := by
  constructor
  · intro found
    have unfinished (c : Char) : lead :: rest ≠ String.utf8EncodeChar c := by
      intro whole
      rw [← List.append_nil (String.utf8EncodeChar c)] at whole
      rw [first_encode c whole] at found
      cases found
    unfold first at found
    cases asked : continuations? lead with
    | none =>
        rw [asked] at found
        cases found
    | some ranges =>
        rw [asked] at found
        dsimp only at found
        split at found
        · cases found
        · split at found
          · next ended =>
              cases found
              have all := following_append_drop ranges rest
              rw [ended, List.append_nil] at all
              obtain ⟨c, starts⟩ := opens_following asked rest
              rw [all] at starts ⊢
              exact ⟨rfl, by simp, c, starts, unfinished c⟩
          · cases found
  · rintro ⟨rfl, -, c, starts, unfinished⟩
    obtain ⟨lead', tail, encoded, ⟨ranges, asked, fits⟩, -⟩ := exists_completes c
    rw [encoded] at starts unfinished
    obtain ⟨rfl, of_tail⟩ := List.cons_prefix_cons.mp starts
    -- All bytes follow the lead byte, and they are fewer than it asks for.
    have all : following ranges rest = rest := by
      have bounded := length_le_length_following fits of_tail (List.prefix_refl rest)
      have divided := following_append_drop ranges rest
      rwa [List.drop_eq_nil_of_le bounded, List.append_nil] at divided
    have short : rest.length ≠ ranges.length := by
      intro full
      rw [fits.length_eq] at full
      exact unfinished (by rw [of_tail.eq_of_length full])
    simp [first, asked, all, short]

/-! ## The first fault -/

/-- Where the first broken piece starts. -/
def Fault.index : Fault → Nat
  | .invalid index _ | .incomplete index => index

/-- A fault at `index` for the piece that starts there. -/
inductive Fault.Blames (index : Nat) : Fault → Piece → Prop where
  | invalid (bytes : List UInt8) : Blames index (.invalid index bytes.length) (.malformed bytes)
  | incomplete (bytes : List UInt8) : Blames index (.incomplete index) (.truncated bytes)

theorem Fault.Blames.index_eq {index : Nat} {fault : Fault} {piece : Piece}
    (blames : fault.Blames index piece) : fault.index = index := by
  cases blames <;> rfl

theorem Fault.Blames.isBroken {index : Nat} {fault : Fault} {piece : Piece}
    (blames : fault.Blames index piece) : piece.isBroken = true := by
  cases blames <;> rfl

theorem exists_of_firstFault? {index : Nat} {bytes : List UInt8} {fault : Fault}
    (found : firstFault? index (pieces bytes) = some fault) :
    ∃ front lead rest, bytes = encode front ++ lead :: rest ∧
      fault.Blames (index + Text.byteSize front) (first lead rest) := by
  revert index
  fun_induction pieces bytes with
  | case1 =>
      intro index found
      cases found
  | case2 lead rest piece =>
      rename_i ih
      intro index found
      cases shape : first lead rest with
      | whole bytes c =>
          -- The fault is behind this character, which belongs to the text in front of it.
          simp only [piece, shape] at found ih
          obtain ⟨rfl, -⟩ := (first_eq_whole_iff lead rest bytes c).mp shape
          obtain ⟨front, lead', rest', divided, blames⟩ := ih found
          have whole := bytes_first_append_drop lead rest
          rw [shape, divided] at whole
          refine ⟨c :: front, lead', rest', ?_, ?_⟩
          · rw [encode_cons, List.append_assoc]
            exact whole.symm
          · rwa [String.length_utf8EncodeChar, Nat.add_assoc] at blames
      | malformed bytes =>
          simp only [piece, shape] at found
          cases found
          refine ⟨[], lead, rest, rfl, ?_⟩
          rw [shape]
          exact .invalid bytes
      | truncated bytes =>
          simp only [piece, shape] at found
          cases found
          refine ⟨[], lead, rest, rfl, ?_⟩
          rw [shape]
          exact .incomplete bytes

/-- Bytes with a fault are those of a text, and behind them a broken piece. -/
theorem exists_of_fault? {bytes : List UInt8} {fault : Fault} (found : fault? bytes = some fault) :
    ∃ front lead rest, bytes = encode front ++ lead :: rest ∧
      fault.Blames (Text.byteSize front) (first lead rest) := by
  obtain ⟨front, lead, rest, divided, blames⟩ := exists_of_firstFault? found
  rw [Nat.zero_add] at blames
  exact ⟨front, lead, rest, divided, blames⟩

/-- In front of a broken piece stands the longest text that bytes start with. -/
theorem isGreatest_wellFormed {front : Text} {lead : UInt8} {rest : List UInt8}
    (broken : (first lead rest).isBroken = true) :
    IsGreatest {n | n ≤ (encode front ++ lead :: rest).length ∧
      WellFormed ((encode front ++ lead :: rest).take n)} (encode front).length := by
  constructor
  · refine ⟨?_, front, List.take_left⟩
    rw [List.length_append]
    exact Nat.le_add_right _ _
  · rintro n ⟨-, formed⟩
    by_contra longer
    obtain ⟨more, rfl⟩ : ∃ more, n = (encode front).length + (more + 1) :=
      ⟨n - (encode front).length - 1, by omega⟩
    -- More bytes would be those of a text only with a character where the broken piece stands.
    rw [List.take_length_add_append, List.take_succ_cons] at formed
    obtain ⟨c, behind, starts⟩ := formed.of_encode_append.exists_startsWith (by simp)
    apply (maximalSubpart_first broken).no_character c
    refine ⟨behind ++ rest.drop more, ?_⟩
    rw [← List.append_assoc, ← starts, List.cons_append, List.take_append_drop]

/-- What stands where bytes with a fault stop being a text, and what is read behind it. -/
def Fault.Explains (bytes : List UInt8) (behind : Text) : Fault → Prop
  | .invalid index length =>
      MaximalSubpart (bytes.drop index) length ∧ ¬ Unfinished (bytes.drop index) ∧
        behind = decode (bytes.drop (index + length))
  | .incomplete index => Unfinished (bytes.drop index) ∧ behind = []

/-- The text in front of a fault, the replacement character, and what is read behind the fault. -/
theorem exists_decode_of_fault? {bytes : List UInt8} {fault : Fault}
    (found : fault? bytes = some fault) :
    IsGreatest {n | n ≤ bytes.length ∧ WellFormed (bytes.take n)} fault.index ∧
      ∃ front behind, bytes.take fault.index = encode front ∧
        decode bytes = front ++ Piece.replacement :: behind ∧ fault.Explains bytes behind := by
  obtain ⟨front, lead, rest, rfl, blames⟩ := exists_of_fault? found
  have broken := blames.isBroken
  rw [blames.index_eq, ← length_encode]
  refine ⟨isGreatest_wellFormed broken, front, ?_⟩
  rw [List.take_left, decode_encode_append, decode_cons]
  have pos := (sound_first lead rest).length_pos
  have maximal := maximalSubpart_first broken
  generalize shape : first lead rest = piece at blames pos maximal ⊢
  cases blames with
  | invalid bytes =>
      refine ⟨_, rfl, rfl, ?_⟩
      rw [← length_encode, Fault.Explains, List.drop_left, List.drop_length_add_append]
      refine ⟨maximal, ?_, ?_⟩
      · intro unfinished
        rw [(first_eq_truncated_iff lead rest _).mpr ⟨rfl, unfinished⟩] at shape
        cases shape
      · obtain ⟨more, size⟩ : ∃ more, bytes.length = more + 1 :=
          ⟨bytes.length - 1, (Nat.sub_add_cancel pos).symm⟩
        show decode (rest.drop (bytes.length - 1)) = _
        rw [size, Nat.add_sub_cancel, List.drop_succ_cons]
  | incomplete bytes =>
      obtain ⟨rfl, unfinished⟩ := (first_eq_truncated_iff lead rest bytes).mp shape
      refine ⟨_, rfl, rfl, ?_⟩
      rw [← length_encode, Fault.Explains, List.drop_left]
      refine ⟨unfinished, ?_⟩
      show decode (rest.drop ((lead :: rest).length - 1)) = []
      rw [List.length_cons, Nat.add_sub_cancel, List.drop_length]
      exact decode_nil

/-! ## Messages -/

theorem Fault.message_invalid (index length : Nat) :
    message (.invalid index length) = "invalid utf-8 sequence of ".toList ++
      (Text.decimal length ++ (" bytes from index ".toList ++ Text.decimal index)) := by
  show _ ++ _ ++ _ ++ _ = _
  rw [List.append_assoc, List.append_assoc]

theorem Fault.message_incomplete (index : Nat) :
    message (.incomplete index) =
      "incomplete utf-8 byte sequence from index ".toList ++ Text.decimal index := rfl

/-- What is said about a fault tells which fault it is. -/
theorem Fault.message_injective : Function.Injective message := by
  have numbers {m n : Nat} {rest rest' : Text}
      (same : Text.decimal m ++ rest = Text.decimal n ++ rest')
      (stop : ∀ c ∈ rest.head?, c.isDigit = false) (stop' : ∀ c ∈ rest'.head?, c.isDigit = false) :
      m = n ∧ rest = rest' := by
    obtain ⟨digits, behind⟩ := Text.append_inj_of_stop Char.isDigit same
      (fun _ mem => Text.isDigit_of_mem_decimal mem) stop
      (fun _ mem => Text.isDigit_of_mem_decimal mem) stop'
    exact ⟨Text.decimal_injective digits, behind⟩
  intro fault fault' same
  cases fault with
  | invalid index length =>
      cases fault' with
      | invalid index' length' =>
          rw [message_invalid, message_invalid] at same
          obtain ⟨rfl, behind⟩ := numbers (List.append_cancel_left same) (by simp) (by simp)
          rw [Text.decimal_injective (List.append_cancel_left behind)]
      | incomplete index' =>
          rw [message_invalid, message_incomplete] at same
          simp at same
  | incomplete index =>
      cases fault' with
      | invalid index' length' =>
          rw [message_invalid, message_incomplete] at same
          simp at same
      | incomplete index' =>
          rw [message_incomplete, message_incomplete] at same
          rw [Text.decimal_injective (List.append_cancel_left same)]

end BooleanLexer.Utf8
