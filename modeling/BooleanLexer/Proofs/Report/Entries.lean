/-
# BooleanLexer.Proofs.Report.Entries -- what a report shows, item by item

The report in text format cuts its source once more, at the spans of its items.  `entries`
lists what it finds there without any cut: each item of a text beside what it is written
with (`lines_readAll`).

Entries say all about a text but which blanks it has: their places tell where blanks stand
(`restore_entries`), and another choice of blanks has the same entries (`entries_blanked`).
-/
import BooleanLexer.Proofs.Item.Steps
import BooleanLexer.Report

namespace BooleanLexer

set_option autoImplicit false

open Text (isBlank byteSize)

namespace Text

theorem utf8Size_of_isBlank {c : Char} (blank : isBlank c = true) : c.utf8Size = 1 := by
  have table : blanks.all (fun c => c.utf8Size = 1) = true := by decide
  have mem : c ∈ blanks := by simpa [isBlank] using blank
  exact of_decide_eq_true (List.all_eq_true.mp table c mem)

/-- A text with a space for each blank. -/
def blanked (text : Text) : Text := text.map fun c => if isBlank c then ' ' else c

theorem blanked_append (first second : Text) :
    blanked (first ++ second) = blanked first ++ blanked second :=
  List.map_append

theorem blanked_cons_blank {c : Char} (blank : isBlank c = true) (rest : Text) :
    blanked (c :: rest) = ' ' :: blanked rest := by
  simp [blanked, blank]

theorem blanked_cons {c : Char} (solid : isBlank c = false) (rest : Text) :
    blanked (c :: rest) = c :: blanked rest := by
  simp [blanked, solid]

theorem blanked_written {c : Char} (solid : isBlank c = false) (rest : Text) :
    blanked (Lexeme.written c rest) = Lexeme.written c rest := by
  unfold Lexeme.written
  split <;> simp [blanked, solid]

/-- Whether an operator is doubled does not depend on the choice of blanks. -/
theorem isDoubled_blanked {c : Char} (solid : isBlank c = false) (rest : Text) :
    Lexeme.isDoubled c (blanked rest) = Lexeme.isDoubled c rest := by
  have space : ' ' ≠ c := by rintro rfl; exact absurd solid (by decide)
  cases rest with
  | nil => rfl
  | cons d rest =>
      by_cases blank : isBlank d = true
      · have other : d ≠ c := by rintro rfl; simp [blank] at solid
        simp [Lexeme.isDoubled, blanked_cons_blank blank, space, other]
      · rw [blanked_cons (Bool.eq_false_iff.mpr blank)]
        rfl

theorem after_blanked {c : Char} (solid : isBlank c = false) (rest : Text) :
    Lexeme.after c (blanked rest) = blanked (Lexeme.after c rest) := by
  unfold Lexeme.after
  rw [isDoubled_blanked solid]
  split
  · exact List.map_tail.symm
  · rfl

end Text

namespace Report

/-- The items of a text at `position`, each beside what it is written with. -/
def entries (position : Nat) : Text → List (Item × Text)
  | [] => [(Item.atEnd position, [])]
  | c :: rest =>
      if isBlank c then entries (position + c.utf8Size) rest
      else
        (⟨Token.leading c, ⟨position, position + byteSize (Lexeme.written c rest)⟩⟩,
            Lexeme.written c rest) ::
          entries (position + byteSize (Lexeme.written c rest)) (Lexeme.after c rest)
termination_by text => text.length
decreasing_by
  · simp
  · exact Nat.lt_succ_of_le (Lexeme.length_after_le c rest)

theorem entries_nil (position : Nat) : entries position [] = [(Item.atEnd position, [])] := by
  rw [entries]

theorem entries_cons_blank (position : Nat) {c : Char} (blank : isBlank c = true) (rest : Text) :
    entries position (c :: rest) = entries (position + c.utf8Size) rest := by
  rw [entries, if_pos blank]

theorem entries_cons (position : Nat) {c : Char} (solid : isBlank c = false) (rest : Text) :
    entries position (c :: rest) =
      (⟨Token.leading c, ⟨position, position + byteSize (Lexeme.written c rest)⟩⟩,
          Lexeme.written c rest) ::
        entries (position + byteSize (Lexeme.written c rest)) (Lexeme.after c rest) := by
  rw [entries, if_neg (Bool.eq_false_iff.mp solid)]

theorem map_fst_entries (position : Nat) (text : Text) :
    (entries position text).map Prod.fst = Item.readAll position text := by
  induction text using Text.reading_induction generalizing position with
  | nil => rw [entries_nil, Item.readAll_nil]; rfl
  | blank c rest blank ih =>
      rw [entries_cons_blank _ blank, Item.readAll_cons_blank _ blank, ih]
  | lexeme c rest solid ih =>
      rw [entries_cons _ solid, Item.readAll_cons _ solid, List.map_cons, ih]

theorem exists_entries_eq_cons (position : Nat) (text : Text) :
    ∃ entry later, entries position text = entry :: later ∧ position ≤ entry.1.span.start := by
  induction text using Text.reading_induction generalizing position with
  | nil => exact ⟨_, _, entries_nil position, Nat.le_refl _⟩
  | blank c rest blank ih =>
      obtain ⟨entry, later, found, behind⟩ := ih (position + c.utf8Size)
      exact ⟨entry, later, (entries_cons_blank position blank rest).trans found, by omega⟩
  | lexeme c rest solid _ => exact ⟨_, _, entries_cons position solid rest, Nat.le_refl _⟩

/-- An entry is for the end of a text or for the token that some character starts. -/
theorem exists_of_mem_entries {position : Nat} {text : Text} {entry : Item × Text}
    (mem : entry ∈ entries position text) :
    (∃ stop, entry = (Item.atEnd stop, [])) ∨
      ∃ start c rest, isBlank c = false ∧
        entry = (⟨Token.leading c, ⟨start, start + byteSize (Lexeme.written c rest)⟩⟩,
          Lexeme.written c rest) := by
  induction text using Text.reading_induction generalizing position with
  | nil =>
      rw [entries_nil] at mem
      exact .inl ⟨position, List.mem_singleton.mp mem⟩
  | blank c rest blank ih =>
      rw [entries_cons_blank _ blank] at mem
      exact ih mem
  | lexeme c rest solid ih =>
      rw [entries_cons _ solid] at mem
      rcases List.mem_cons.mp mem with rfl | mem
      · exact .inr ⟨position, c, rest, solid, rfl⟩
      · exact ih mem

/-! ## The lines of a report -/

/-- Lines do not look at what stands before their items. -/
theorem lines_append (position : Nat) (taken rest : Text) {items : List Item}
    (behind : ∀ item ∈ items.head?, position + byteSize taken ≤ item.span.start) :
    lines position (taken ++ rest) items = lines (position + byteSize taken) rest items := by
  cases items with
  | nil => rfl
  | cons item items =>
      have behind := behind item rfl
      have apart : item.span.start - position =
          byteSize taken + (item.span.start - (position + byteSize taken)) := by omega
      rw [lines, lines, apart, Text.dropBytes_byteSize_add_append]

/-- A report shows each item beside what it is written with. -/
theorem lines_readAll (position : Nat) (text : Text) :
    lines position text (Item.readAll position text) =
      (entries position text).map fun entry => line entry.1 entry.2 := by
  have behind (position : Nat) (text : Text) :
      ∀ item ∈ (Item.readAll position text).head?, position ≤ item.span.start := by
    intro item first
    rw [Item.head?_readAll, Option.mem_some_iff] at first
    exact first ▸ Item.position_le_start_first position text
  induction text using Text.reading_induction generalizing position with
  | nil =>
      rw [Item.readAll_nil, entries_nil]
      simp [lines, Item.atEnd, Span.size, Text.dropBytes, Text.dropBytes?, Text.takeBytes,
        Text.takeBytes?]
  | blank c rest blank ih =>
      rw [Item.readAll_cons_blank _ blank, entries_cons_blank _ blank, ← ih]
      exact lines_append position [c] rest (behind (position + c.utf8Size) rest)
  | lexeme c rest solid ih =>
      have whole : Text.dropBytes (position - position) (c :: rest) =
          Lexeme.written c rest ++ Lexeme.after c rest := by
        rw [Nat.sub_self, Lexeme.written_append_after]
        simp [Text.dropBytes, Text.dropBytes?]
      rw [Item.readAll_cons _ solid, entries_cons _ solid, List.map_cons, ← ih, lines, whole,
        Span.size, Nat.add_sub_cancel_left, Text.takeBytes_byteSize_append]
      exact congrArg _ (lines_append position _ _ (behind _ _))

/-! ## Entries and blanks -/

/-- The text that is written at some places, with spaces in between. -/
def restore (position : Nat) : List (Nat × Text) → Text
  | [] => []
  | (start, part) :: later =>
      List.replicate (start - position) ' ' ++ part ++ restore (start + byteSize part) later

/-- Where an entry stands, and what is written there. -/
def place (entry : Item × Text) : Nat × Text := (entry.1.span.start, entry.2)

/-- The places of its entries tell a text but for the choice of blanks. -/
theorem restore_entries (position : Nat) (text : Text) :
    restore position ((entries position text).map place) = Text.blanked text := by
  induction text using Text.reading_induction generalizing position with
  | nil => simp [entries_nil, place, restore, Item.atEnd, Text.blanked]
  | blank c rest blank ih =>
      obtain ⟨entry, later, found, behind⟩ := exists_entries_eq_cons (position + c.utf8Size) rest
      have size := Text.utf8Size_of_isBlank blank
      have gap : entry.1.span.start - position =
          entry.1.span.start - (position + c.utf8Size) + 1 := by omega
      rw [entries_cons_blank _ blank, Text.blanked_cons_blank blank, ← ih (position + c.utf8Size),
        found, List.map_cons, place, restore, restore, gap, List.replicate_succ]
      rfl
  | lexeme c rest solid ih =>
      have divided := Lexeme.written_append_after c rest
      rw [entries_cons _ solid, List.map_cons, place, restore, ih, Nat.sub_self, ← divided,
        Text.blanked_append, Text.blanked_written solid]
      rfl

/-- The choice of blanks makes no difference to the entries of a text. -/
theorem entries_blanked (position : Nat) (text : Text) :
    entries position (Text.blanked text) = entries position text := by
  induction text using Text.reading_induction generalizing position with
  | nil => rfl
  | blank c rest blank ih =>
      have space : isBlank ' ' = true := by decide
      have size : ' '.utf8Size = c.utf8Size := (Text.utf8Size_of_isBlank blank).symm
      rw [Text.blanked_cons_blank blank, entries_cons_blank _ blank, entries_cons_blank _ space,
        size, ih]
  | lexeme c rest solid ih =>
      have written : Lexeme.written c (Text.blanked rest) = Lexeme.written c rest := by
        rw [Lexeme.written, Lexeme.written, Text.isDoubled_blanked solid]
      rw [Text.blanked_cons solid, entries_cons _ solid, entries_cons _ solid, written,
        Text.after_blanked solid, ih]

end Report

end BooleanLexer
