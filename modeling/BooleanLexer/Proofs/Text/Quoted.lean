/-
# BooleanLexer.Proofs.Text.Quoted -- quoted text can be read back

`unescape?` reads one character as it stands between two delimiters.  It finds its end in
whatever follows (`unescape?_escape_append`), and no character is written so that it starts
with the delimiter (`escape_append_ne`), so a quoted text ends where it says and tells what it
quotes (`quoted_append_inj`).  It holds no line feed, and no space but those that it quotes.
-/
import BooleanLexer.Proofs.Text.Lines
import BooleanLexer.Proofs.Text.Numerals
import BooleanLexer.Text.Quoted

namespace BooleanLexer.Text

set_option autoImplicit false

/-- The characters that quoted text stands between. -/
def delimiters : List Char := ['"', '\'']

/-- One character as it stands between two delimiters, and what follows it. -/
def unescape? : Text → Option (Char × Text)
  | '\\' :: '0' :: rest => some ('\x00', rest)
  | '\\' :: 't' :: rest => some ('\t', rest)
  | '\\' :: 'n' :: rest => some ('\n', rest)
  | '\\' :: 'r' :: rest => some ('\r', rest)
  | '\\' :: 'u' :: '\x7b' :: rest =>
      (ofHexadecimal? (rest.takeWhile (· ≠ '\x7d'))).map fun number =>
        (Char.ofNat number, (rest.dropWhile (· ≠ '\x7d')).tail)
  | '\\' :: c :: rest => some (c, rest)
  | c :: rest => some (c, rest)
  | [] => none

variable {delimiter c : Char}

theorem unescape?_number (c : Char) (rest : Text) :
    unescape? (['\\', 'u', '\x7b'] ++ hexadecimal c.toNat ++ ['\x7d'] ++ rest) =
      some (c, rest) := by
  have digits : ∀ d ∈ hexadecimal c.toNat, decide (d ≠ '\x7d') = true := fun d mem =>
    decide_eq_true (ne_of_mem_of_not_mem (mem_hexDigits_of_mem_hexadecimal mem) (by decide))
  have front : (hexadecimal c.toNat ++ '\x7d' :: rest).takeWhile (· ≠ '\x7d') =
      hexadecimal c.toNat :=
    takeWhile_append_of_stop digits (by simp)
  have behind : (hexadecimal c.toNat ++ '\x7d' :: rest).dropWhile (· ≠ '\x7d') =
      '\x7d' :: rest :=
    dropWhile_append_of_stop digits (by simp)
  simp only [List.cons_append, List.nil_append, List.append_assoc]
  rw [unescape?, front, behind, ofHexadecimal?_hexadecimal, Option.map_some, List.tail_cons,
    Char.ofNat_toNat]

theorem unescape?_escape_append (mark : delimiter ∈ delimiters) (rest : Text) :
    unescape? (escape delimiter c ++ rest) = some (c, rest) := by
  have either : delimiter = '"' ∨ delimiter = '\'' := by simpa [delimiters] using mark
  unfold escape
  split
  · next null => rw [null]; rfl
  split
  · next tab => rw [tab]; rfl
  split
  · next feed => rw [feed]; rfl
  split
  · next carriage => rw [carriage]; rfl
  split
  · next special =>
      rcases special with rfl | rfl
      · rfl
      · rcases either with rfl | rfl <;> rfl
  split
  · exact unescape?_number c rest
  · -- No rule but the last one is for a character that is no backslash.
    next plain _ =>
      have plain : c ≠ '\\' := fun backslash => plain (.inl backslash)
      unfold unescape?
      split <;> simp_all

theorem escape_append_inj {c' : Char} {rest rest' : Text} (mark : delimiter ∈ delimiters)
    (same : escape delimiter c ++ rest = escape delimiter c' ++ rest') :
    c = c' ∧ rest = rest' := by
  have read := congrArg unescape? same
  rw [unescape?_escape_append mark, unescape?_escape_append mark] at read
  simpa using read

/-- No character is written so that it starts with the delimiter. -/
theorem escape_append_ne (mark : delimiter ∈ delimiters) (rest rest' : Text) :
    escape delimiter c ++ rest ≠ delimiter :: rest' := by
  have plain : '\\' ≠ delimiter := fun backslash => absurd mark (backslash ▸ by decide)
  unfold escape
  repeat' split
  all_goals simp_all

theorem flatMap_escape_append_inj (mark : delimiter ∈ delimiters) {text text' rest rest' : Text}
    (same : text.flatMap (escape delimiter) ++ delimiter :: rest =
      text'.flatMap (escape delimiter) ++ delimiter :: rest') : text = text' ∧ rest = rest' := by
  induction text generalizing text' with
  | nil =>
      cases text' with
      | nil => exact ⟨rfl, List.cons_inj_right _ |>.mp same⟩
      | cons c' text' =>
          rw [List.flatMap_cons, List.append_assoc] at same
          exact absurd same.symm (escape_append_ne mark _ _)
  | cons c text ih =>
      rw [List.flatMap_cons, List.append_assoc] at same
      cases text' with
      | nil => exact absurd same (escape_append_ne mark _ _)
      | cons c' text' =>
          rw [List.flatMap_cons, List.append_assoc] at same
          obtain ⟨char, same_rest⟩ := escape_append_inj mark same
          obtain ⟨texts, rests⟩ := ih same_rest
          exact ⟨by rw [char, texts], rests⟩

/-- A quoted text ends at its delimiter and tells what it quotes. -/
theorem quoted_append_inj {text text' rest rest' : Text}
    (same : quoted text ++ rest = quoted text' ++ rest') : text = text' ∧ rest = rest' := by
  have mark : '"' ∈ delimiters := by decide
  simp only [quoted, List.append_assoc, List.singleton_append] at same
  exact flatMap_escape_append_inj mark ((List.cons_inj_right _).mp same)

/-! ## What quoted text does not hold -/

theorem ne_of_mem_escape {d : Char} (mark : delimiter ∈ delimiters)
    (mem : d ∈ escape delimiter c) : d ≠ '\n' ∧ (c ≠ ' ' → d ≠ ' ') := by
  have either : delimiter = '"' ∨ delimiter = '\'' := by simpa [delimiters] using mark
  have digits : d ∈ hexadecimal c.toNat → d ≠ '\n' ∧ d ≠ ' ' := fun mem =>
    ⟨ne_of_mem_of_not_mem (mem_hexDigits_of_mem_hexadecimal mem) (by decide),
      ne_of_mem_of_not_mem (mem_hexDigits_of_mem_hexadecimal mem) (by decide)⟩
  unfold escape at mem
  repeat' split at mem
  all_goals grind

theorem feed_not_mem_quotedChar (c : Char) : '\n' ∉ quotedChar c := by
  simp only [quotedChar, List.mem_append, List.mem_singleton, not_or]
  exact ⟨⟨by decide, fun mem => (ne_of_mem_escape (by decide) mem).1 rfl⟩, by decide⟩

theorem space_not_mem_quotedChar (other : c ≠ ' ') : ' ' ∉ quotedChar c := by
  simp only [quotedChar, List.mem_append, List.mem_singleton, not_or]
  exact ⟨⟨by decide, fun mem => (ne_of_mem_escape (by decide) mem).2 other rfl⟩, by decide⟩

theorem feed_not_mem_quoted (text : Text) : '\n' ∉ quoted text := by
  simp only [quoted, List.mem_append, List.mem_singleton, List.mem_flatMap, not_or, not_exists,
    not_and]
  exact ⟨⟨by decide, fun c _ mem => (ne_of_mem_escape (by decide) mem).1 rfl⟩, by decide⟩

end BooleanLexer.Text
