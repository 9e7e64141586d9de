/-
# BooleanLexer.Proofs.Json.Records -- records can be read back

Both forms of a record have the same atoms, so the reader sees no difference between them.
Between the brackets of an object or array it goes round once for each part, with the parts
that it has read so far in the innermost frame (`foldlM_separated`).  Hence a compact record
reads as the object of its members (`read?_compact`), and a spread list of records as the
array of these objects (`read?_spreadRecords`).
-/
import BooleanLexer.Proofs.Json.Layout

namespace BooleanLexer.Json

set_option autoImplicit false

open Layout (separated)

/-! ## The reader on the atoms of records -/

/-- The reader on parts with commas between them and a bracket behind them; `start` is its
state in front of a part, and `behind` the one behind it, where it has read the parts before. -/
theorem foldlM_separated {α β : Type} {atoms : α → List Atom} {value : α → β}
    (start finished : List β → State) (behind : List β → β → State) (closing : Atom)
    (each : ∀ before x, (atoms x).foldlM State.step (start before) =
      some (behind before (value x)))
    (comma : ∀ before v, (behind before v).step .comma = some (start (before ++ [v])))
    (closes : ∀ before v, (behind before v).step closing = some (finished (before ++ [v]))) :
    ∀ (before : List β) (x : α) (parts : List α),
      (separated ((x :: parts).map atoms) ++ [closing]).foldlM State.step (start before) =
        some (finished (before ++ (x :: parts).map value))
  | before, x, [] => by
      simp [separated, each, closes]
  | before, x, y :: parts => by
      have rest := foldlM_separated start finished behind closing each comma closes
        (before ++ [value x]) y parts
      simp only [separated, List.map_cons, List.intercalate_cons_cons, List.append_assoc,
        List.singleton_append, List.foldlM_append, each, List.foldlM_cons, comma,
        Option.bind_eq_bind, Option.bind_some] at rest ⊢
      rw [rest]

theorem foldlM_atoms (record : Record) (frames : List Frame) :
    record.atoms.foldlM State.step (.expectValue frames) =
      some (.behind (.ofRecord record) frames) := by
  have opens : (State.expectValue frames).step .openObject = some (.expectName [] frames) := rfl
  rw [Record.atoms, List.append_assoc, List.singleton_append, List.foldlM_cons, opens,
    Option.bind_eq_bind, Option.bind_some]
  match record with
  | [] => rfl
  | field :: record =>
      have each (before : List (Text × Value)) (field : Text × Scalar) :
          (fieldAtoms field).foldlM State.step (.expectName before frames) =
            some (.behind (Value.ofField field).2
              (.object before (Value.ofField field).1 :: frames)) := by
        simp [fieldAtoms, State.step, Value.ofField]
      exact foldlM_separated (fun before => .expectName before frames)
        (fun members => .behind (.object members) frames)
        (fun before member => .behind member.2 (.object before member.1 :: frames))
        .closeObject each (fun _ _ => rfl) (fun _ _ => rfl) [] field record

theorem foldlM_recordsAtoms (records : List Record) (frames : List Frame) :
    (recordsAtoms records).foldlM State.step (.expectValue frames) =
      some (.behind (.array (records.map Value.ofRecord)) frames) := by
  have opens : (State.expectValue frames).step .openArray =
    some (.expectValue (.array [] :: frames)) := rfl
  rw [recordsAtoms, List.append_assoc, List.singleton_append, List.foldlM_cons, opens,
    Option.bind_eq_bind, Option.bind_some]
  match records with
  | [] => rfl
  | record :: records =>
      exact foldlM_separated (fun before => .expectValue (.array before :: frames))
        (fun values => .behind (.array values) frames)
        (fun before value => .behind value (.array before :: frames))
        .closeArray (fun before record => foldlM_atoms record (.array before :: frames))
        (fun _ _ => rfl) (fun _ _ => rfl) [] record records

/-! ## Both forms -/

theorem Layout.atoms?_append {text bare : Text} {atoms : List Atom}
    (layout : Layout text bare atoms) {rest : Text} (closed : Closed rest)
    (blank : atoms? rest = some []) : atoms? (text ++ rest) = some atoms := by
  rw [layout.reads rest closed, blank, Option.map_some, List.append_nil]

theorem read?_compact (record : Record) : read? record.compact = some (.ofRecord record) := by
  have atoms : atoms? (record.compact ++ []) = some record.atoms :=
    (layout_compact record).atoms?_append (by simp [Closed]) (by simp [atoms?])
  rw [List.append_nil] at atoms
  rw [read?, atoms, Option.bind_some, foldlM_atoms]
  rfl

theorem read?_spreadRecords (records : List Record) :
    read? (spreadRecords records ++ ['\n']) = some (.array (records.map Value.ofRecord)) := by
  have feed : isWordChar '\n' = false := by decide
  have atoms : atoms? (spreadRecords records ++ ['\n']) = some (recordsAtoms records) :=
    (layout_spreadRecords records).atoms?_append (by simp [Closed, feed])
      (by simp [atoms?, isSpace])
  rw [read?, atoms, Option.bind_some, foldlM_recordsAtoms]
  rfl

/-- Without white space, a spread list of records is a list of compact records. -/
theorem strip_spreadRecords (records : List Record) :
    strip (spreadRecords records ++ ['\n']) =
      ['['] ++ commaSeparated (records.map Record.compact) ++ [']'] := by
  have last : strip ['\n'] = [] := by decide
  rw [(layout_spreadRecords records).strips, last, List.append_nil]

/-! ## Lines -/

theorem mem_commaSeparated {c : Char} : ∀ {parts : List Text}, c ∈ commaSeparated parts →
    c = ',' ∨ ∃ part ∈ parts, c ∈ part
  | [], mem => by simp [commaSeparated] at mem
  | [part], mem => .inr ⟨part, List.mem_singleton_self part, by simpa [commaSeparated] using mem⟩
  | part :: part' :: parts, mem => by
      simp only [commaSeparated, List.intercalate_cons_cons, List.mem_append,
        List.mem_singleton] at mem
      rcases mem with (first | comma) | others
      · exact .inr ⟨part, List.mem_cons_self, first⟩
      · exact .inl comma
      · refine (mem_commaSeparated others).imp id ?_
        rintro ⟨later, within, mem⟩
        exact ⟨later, List.mem_cons_of_mem part within, mem⟩

theorem feed_not_mem_string (text : Text) : '\n' ∉ string text := by
  have marks : '\n' ∉ ['"'] := by decide
  simp only [string, List.mem_append, List.mem_flatMap, not_or, not_exists, not_and]
  exact ⟨⟨marks, fun c _ => feed_not_mem_escape c⟩, marks⟩

theorem feed_not_mem_render (value : Scalar) : '\n' ∉ value.render := by
  match value with
  | .null | .bool true | .bool false => decide
  | .number value =>
      intro mem
      exact absurd (Text.isDigit_of_mem_decimal mem) (by decide)
  | .string value => exact feed_not_mem_string value

/-- A compact record stands on one line. -/
theorem feed_not_mem_compact (record : Record) : '\n' ∉ record.compact := by
  intro mem
  simp only [Record.compact, List.mem_append, List.mem_singleton] at mem
  rcases mem with (opening | inside) | closing
  · exact absurd opening (by decide)
  · rcases mem_commaSeparated inside with comma | ⟨part, within, mem⟩
    · exact absurd comma (by decide)
    · obtain ⟨⟨name, value⟩, -, rfl⟩ := List.mem_map.mp within
      simp only [List.mem_append, List.mem_singleton] at mem
      rcases mem with (name_mem | colon) | value_mem
      · exact feed_not_mem_string name name_mem
      · exact absurd colon (by decide)
      · exact feed_not_mem_render value value_mem
  · exact absurd closing (by decide)

end BooleanLexer.Json
