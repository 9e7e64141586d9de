/-
# BooleanLexer.Proofs.Json.Strings -- strings can be read back

A character of a string is written in one of three ways (`escape_cases`): as a backslash and a
mark, as a backslash and four hexadecimal digits, or as itself.  Each is read as the character
that it stands for, and none holds a quotation mark that is not behind a backslash.  So a
string ends where it says: it is read back (`readString?_flatMap_escape`), and white space
within it stays (`stripFrom_flatMap_escape`).
-/
import BooleanLexer.Proofs.Json.Reader
import Mathlib.Data.List.Basic

namespace BooleanLexer.Json

set_option autoImplicit false

/-! ## Characters -/

theorem ofHexadecimal?_replicate_append (count : Nat) (digits : Text) :
    Text.ofHexadecimal? (List.replicate count '0' ++ digits) = Text.ofHexadecimal? digits := by
  induction count with
  | zero => rfl
  | succ count ih =>
      rw [← ih]
      rfl

theorem ofCode?_leftpad (width : Nat) (c : Char) :
    ofCode? (List.leftpad width '0' (Text.hexadecimal c.toNat)) = some c := by
  have code : Text.ofHexadecimal? (List.leftpad width '0' (Text.hexadecimal c.toNat)) =
      some c.toNat := by
    rw [List.leftpad, ofHexadecimal?_replicate_append, Text.ofHexadecimal?_hexadecimal]
  have valid : c.toNat.isValidChar := c.valid
  rw [ofCode?, code, Option.bind_some, if_pos valid, Char.ofNat_toNat]

theorem mem_hexDigits_of_mem_leftpad {width n : Nat} {d : Char}
    (mem : d ∈ List.leftpad width '0' (Text.hexadecimal n)) : d ∈ Text.hexDigits := by
  rcases List.mem_append.mp mem with padding | digit
  · rw [List.eq_of_mem_replicate padding]
    decide
  · exact Text.mem_hexDigits_of_mem_hexadecimal digit

theorem length_leftpad_hexadecimal :
    ∀ n < 32, (List.leftpad 4 '0' (Text.hexadecimal n)).length = 4 := by decide

/-- The three ways to write a character. -/
theorem escape_cases (c : Char) :
    (∃ mark, escape c = ['\\', mark] ∧ unescape? mark = some c) ∨
      (∃ p q r s, escape c = ['\\', 'u', p, q, r, s] ∧ ofCode? [p, q, r, s] = some c ∧
        ∀ d ∈ [p, q, r, s], d ∈ Text.hexDigits) ∨
      (escape c = [c] ∧ c ≠ '"' ∧ c ≠ '\\' ∧ ¬ c < ' ') := by
  unfold escape
  split
  case h_8 quotation backslash _ _ _ _ _ =>
    split
    · next control =>
        have small : c.toNat < 32 := control
        obtain ⟨p, q, r, s, digits⟩ :=
          List.length_eq_four.mp (length_leftpad_hexadecimal c.toNat small)
        have code := ofCode?_leftpad 4 c
        have mem : ∀ d ∈ List.leftpad 4 '0' (Text.hexadecimal c.toNat), d ∈ Text.hexDigits :=
          fun _ => mem_hexDigits_of_mem_leftpad
        rw [digits] at code
        exact .inr (.inl ⟨p, q, r, s, by rw [digits]; rfl, code, digits ▸ mem⟩)
    · next printed => exact .inr (.inr ⟨rfl, quotation, backslash, printed⟩)
  all_goals exact .inl ⟨_, rfl, rfl⟩

/-! ## Reading -/

theorem readString?_escape_append (c : Char) (rest : Text) :
    readString? (escape c ++ rest) = (readString? rest).map (Prod.map (c :: ·) id) := by
  rcases escape_cases c with ⟨mark, written, read⟩ | ⟨p, q, r, s, written, read, -⟩ |
    ⟨written, quotation, backslash, printed⟩
  · have letter : mark ≠ 'u' := by
      rintro rfl
      cases read
    rw [written, List.cons_append, List.cons_append, List.nil_append, readString?, read,
      Option.bind_some]
    simp [letter]
  · rw [written]
    simp only [List.cons_append, List.nil_append, readString?, read, Option.bind_some]
  · rw [written, List.singleton_append, readString?, if_neg printed] <;> simp [quotation, backslash]

theorem readString?_flatMap_escape (text rest : Text) :
    readString? (text.flatMap escape ++ '"' :: rest) = some (text, rest) := by
  induction text with
  | nil => rfl
  | cons c text ih =>
      rw [List.flatMap_cons, List.append_assoc, readString?_escape_append, ih]
      rfl

/-! ## White space -/

theorem stripFrom_true_cons {c : Char} (quotation : c ≠ '"') (backslash : c ≠ '\\')
    (rest : Text) : stripFrom true (c :: rest) = c :: stripFrom true rest := by
  rw [stripFrom] <;> simp [quotation, backslash]

theorem stripFrom_escape_append (c : Char) (rest : Text) :
    stripFrom true (escape c ++ rest) = escape c ++ stripFrom true rest := by
  rcases escape_cases c with ⟨mark, written, -⟩ | ⟨p, q, r, s, written, -, digits⟩ |
    ⟨written, quotation, backslash, -⟩
  · rw [written]
    rfl
  · have marks : '"' ∉ Text.hexDigits ∧ '\\' ∉ Text.hexDigits := by decide
    have plain (d : Char) (digit : d ∈ Text.hexDigits) : d ≠ '"' ∧ d ≠ '\\' :=
      ⟨ne_of_mem_of_not_mem digit marks.1, ne_of_mem_of_not_mem digit marks.2⟩
    rw [written]
    simp only [List.forall_mem_cons] at digits
    obtain ⟨hp, hq, hr, hs, -⟩ := digits
    simp only [List.cons_append, List.nil_append, stripFrom,
      stripFrom_true_cons (plain p hp).1 (plain p hp).2,
      stripFrom_true_cons (plain q hq).1 (plain q hq).2,
      stripFrom_true_cons (plain r hr).1 (plain r hr).2,
      stripFrom_true_cons (plain s hs).1 (plain s hs).2]
  · rw [written]
    exact stripFrom_true_cons quotation backslash rest

theorem stripFrom_flatMap_escape (text rest : Text) :
    stripFrom true (text.flatMap escape ++ '"' :: rest) =
      text.flatMap escape ++ '"' :: strip rest := by
  induction text with
  | nil => rfl
  | cons c text ih =>
      rw [List.flatMap_cons, List.append_assoc, stripFrom_escape_append, ih, List.append_assoc]

theorem feed_not_mem_escape (c : Char) : '\n' ∉ escape c := by
  rcases escape_cases c with ⟨mark, written, read⟩ | ⟨p, q, r, s, written, -, digits⟩ |
    ⟨written, -, -, printed⟩
  · have other : mark ≠ '\n' := by
      rintro rfl
      cases read
    simp [written, other.symm]
  · have plain : '\n' ∉ [p, q, r, s] := fun mem => absurd (digits _ mem) (by decide)
    simp only [written, List.mem_cons, not_or] at plain ⊢
    exact ⟨by decide, by decide, plain⟩
  · have other : c ≠ '\n' := by
      rintro rfl
      exact printed (by decide)
    simp [written, other.symm]

end BooleanLexer.Json
