/-
# BooleanLexer.Proofs.Json.Layout -- texts with the same atoms

A text may be laid out in many ways.  `Layout text bare atoms` says that `text` has certain
atoms wherever it stands, and that without its white space it is `bare`.  Layouts are made in
the order in which the writers put texts together: a mark or a space stands in front of one
(`Layout.mark`, `Layout.space`), parts follow each other with commas between them
(`Layout.commaSeparated`), and a list of parts stands between brackets (`Layout.spread`).

A word or number goes on as far as its characters do, so what follows it matters:
`Layout.atoms` asks for a text that is `Closed`, and all that the writers put behind a value
starts with a mark or a line feed.
-/
import BooleanLexer.Proofs.Json.Strings
import BooleanLexer.Proofs.Text.Lines

namespace BooleanLexer.Json

set_option autoImplicit false

/-! ## Single characters -/

theorem ne_of_isWordChar {c : Char} (word : isWordChar c = true) :
    c ≠ '"' ∧ punctuation? c = none ∧ isSpace c = false := by
  have other {d : Char} (mark : isWordChar d = false) : c ≠ d := by
    rintro rfl
    rw [word] at mark
    cases mark
  refine ⟨other (by decide), ?_, ?_⟩
  · unfold punctuation?
    split <;> first | rfl | exact absurd rfl (other (by decide))
  · simp only [isSpace, Bool.or_eq_false_iff, decide_eq_false_iff_not]
    exact ⟨⟨⟨other (by decide), other (by decide)⟩, other (by decide)⟩, other (by decide)⟩

theorem ne_of_punctuation? {c : Char} {atom : Atom} (mark : punctuation? c = some atom) :
    c ≠ '"' ∧ isSpace c = false ∧ isWordChar c = false := by
  unfold punctuation? at mark
  split at mark <;> first | decide | cases mark

theorem atoms?_of_isSpace {c : Char} (space : isSpace c = true) (rest : Text) :
    atoms? (c :: rest) = atoms? rest := by
  rw [atoms?, if_pos space]

theorem atoms?_of_atom? {c : Char} {rest behind : Text} {atom : Atom}
    (solid : isSpace c = false) (found : atom? c rest = some (atom, behind)) :
    atoms? (c :: rest) = (atoms? behind).map (atom :: ·) := by
  rw [atoms?, if_neg (by simp [solid])]
  split <;> simp_all

theorem strip_of_isSpace {c : Char} (space : isSpace c = true) (rest : Text) :
    strip (c :: rest) = strip rest := by
  have other : c ≠ '"' := by
    rintro rfl
    exact absurd space (by decide)
  rw [strip, stripFrom] <;> simp [space, other, strip]

theorem strip_of_not_isSpace {c : Char} (solid : isSpace c = false) (other : c ≠ '"')
    (rest : Text) : strip (c :: rest) = c :: strip rest := by
  rw [strip, stripFrom] <;> simp [solid, other, strip]

theorem strip_append_of_isWordChar {word : Text} (chars : ∀ d ∈ word, isWordChar d = true)
    (rest : Text) : strip (word ++ rest) = word ++ strip rest := by
  induction word with
  | nil => rfl
  | cons d word ih =>
      obtain ⟨first, others⟩ := List.forall_mem_cons.mp chars
      obtain ⟨quotation, -, solid⟩ := ne_of_isWordChar first
      rw [List.cons_append, strip_of_not_isSpace solid quotation, ih others, List.cons_append]

/-! ## Layouts -/

/-- Whether a word or number ends where `rest` follows it. -/
def Closed (rest : Text) : Prop := ∀ c ∈ rest.head?, isWordChar c = false

/-- Whether `text` has these atoms wherever it stands, and is `bare` without white space. -/
structure Layout (text bare : Text) (atoms : List Atom) : Prop where
  reads : ∀ rest, Closed rest → atoms? (text ++ rest) = (atoms? rest).map (atoms ++ ·)
  strips : ∀ rest, strip (text ++ rest) = bare ++ strip rest

namespace Layout

variable {text bare text' bare' : Text} {atoms atoms' : List Atom}

theorem nil : Layout [] [] [] where
  reads rest _ := by simp
  strips rest := rfl

theorem append (front : Layout text bare atoms) (back : Layout text' bare' atoms')
    (closed : ∀ rest, Closed rest → Closed (text' ++ rest)) :
    Layout (text ++ text') (bare ++ bare') (atoms ++ atoms') where
  reads rest ends := by
    rw [List.append_assoc, front.reads _ (closed rest ends), back.reads rest ends, Option.map_map]
    exact congrArg (Option.map · _) (funext fun _ => (List.append_assoc ..).symm)
  strips rest := by
    rw [List.append_assoc, front.strips, back.strips, List.append_assoc]

/-- A mark stands in front. -/
theorem mark {c : Char} {atom : Atom} (mark : punctuation? c = some atom)
    (layout : Layout text bare atoms) : Layout (c :: text) (c :: bare) (atom :: atoms) where
  reads rest ends := by
    obtain ⟨quotation, solid, -⟩ := ne_of_punctuation? mark
    have found : atom? c (text ++ rest) = some (atom, text ++ rest) := by
      rw [atom?, if_neg quotation, mark]
    rw [List.cons_append, atoms?_of_atom? solid found, layout.reads rest ends, Option.map_map]
    rfl
  strips rest := by
    obtain ⟨quotation, solid, -⟩ := ne_of_punctuation? mark
    rw [List.cons_append, strip_of_not_isSpace solid quotation, layout.strips, List.cons_append]

/-- White space stands in front. -/
theorem space {c : Char} (space : isSpace c = true) (layout : Layout text bare atoms) :
    Layout (c :: text) bare atoms where
  reads rest ends := by
    rw [List.cons_append, atoms?_of_isSpace space, layout.reads rest ends]
  strips rest := by
    rw [List.cons_append, strip_of_isSpace space, layout.strips]

theorem lineBreak (indent : Nat) (layout : Layout text bare atoms) :
    Layout (Json.lineBreak indent ++ text) bare atoms := by
  have spaces : Layout (List.replicate indent ' ' ++ text) bare atoms := by
    induction indent with
    | zero => exact layout
    | succ indent ih => exact space rfl ih
  exact space rfl spaces

/-! ## Values -/

theorem string (value : Text) :
    Layout (Json.string value) (Json.string value) [.scalar (.string value)] where
  reads rest _ := by
    have found : atom? '"' (value.flatMap escape ++ '"' :: rest) =
        some (.scalar (.string value), rest) := by
      rw [atom?, if_pos rfl, readString?_flatMap_escape]
      rfl
    rw [Json.string, List.append_assoc, List.append_assoc]
    exact atoms?_of_atom? rfl found
  strips rest := by
    have within := stripFrom_flatMap_escape value rest
    simp only [Json.string, List.append_assoc, List.cons_append, List.nil_append, strip, stripFrom,
      if_true, Bool.not_false] at within ⊢
    rw [within]

theorem word {c : Char} {word : Text} {value : Scalar}
    (chars : (c :: word).all isWordChar = true) (read : ofWord? (c :: word) = some value) :
    Layout (c :: word) (c :: word) [.scalar value] where
  reads rest ends := by
    obtain ⟨first, others⟩ := List.forall_mem_cons.mp (List.all_eq_true.mp chars)
    obtain ⟨quotation, plain, solid⟩ := ne_of_isWordChar first
    have front := Text.takeWhile_append_of_stop others ends
    have behind := Text.dropWhile_append_of_stop others ends
    have found : atom? c (word ++ rest) = some (.scalar value, rest) := by
      simp only [atom?, if_neg quotation, plain, front, behind, read, Option.map_some]
    exact atoms?_of_atom? solid found
  strips := strip_append_of_isWordChar (List.all_eq_true.mp chars)

theorem number (value : Nat) :
    Layout (Text.decimal value) (Text.decimal value) [.scalar (.number value)] := by
  have digits : (Text.decimal value).all Char.isDigit = true :=
    List.all_eq_true.mpr fun _ mem => Text.isDigit_of_mem_decimal mem
  have chars : (Text.decimal value).all isWordChar = true := by
    rw [List.all_eq_true] at digits ⊢
    intro d mem
    simp [isWordChar, Char.isAlphanum, digits d mem]
  have other {word : Text} (letter : word.all Char.isDigit = false) :
      Text.decimal value ≠ word := by
    rintro rfl
    rw [digits] at letter
    cases letter
  have read : ofWord? (Text.decimal value) = some (.number value) := by
    rw [ofWord?, if_neg (other (by decide)), if_neg (other (by decide)),
      if_neg (other (by decide)), Text.ofDigitChars_decimal, if_pos rfl]
  obtain ⟨c, rest, written⟩ := List.exists_cons_of_ne_nil (Text.decimal_ne_nil value)
  rw [written] at chars read ⊢
  exact word chars read

theorem scalar (value : Scalar) : Layout value.render value.render [.scalar value] := by
  match value with
  | .null => exact word (by decide) (by decide)
  | .bool true => exact word (by decide) (by decide)
  | .bool false => exact word (by decide) (by decide)
  | .number value => exact number value
  | .string value => exact string value

/-! ## Lists of parts -/

/-- Parts with a comma between each two. -/
def separated (parts : List (List Atom)) : List Atom := [Atom.comma].intercalate parts

/-- What starts with a mark ends the word in front of it. -/
theorem append_mark {c : Char} {atom : Atom} (mark : punctuation? c = some atom)
    (front : Layout text bare atoms) (back : Layout text' bare' atoms') :
    Layout (text ++ c :: text') (bare ++ c :: bare') (atoms ++ atom :: atoms') :=
  front.append (back.mark mark) fun _ _ => by
    simp [Closed, (ne_of_punctuation? mark).2.2]

section Parts

variable {α : Type} {part part' : α → Text} {partAtoms : α → List Atom}

theorem commaSeparated : ∀ parts : List α,
    (∀ x ∈ parts, Layout (part x) (part' x) (partAtoms x)) →
      Layout (Json.commaSeparated (parts.map part)) (Json.commaSeparated (parts.map part'))
        (separated (parts.map partAtoms))
  | [], _ => nil
  | [x], each => by simpa [Json.commaSeparated, separated] using each
  | x :: y :: parts, each => by
      obtain ⟨first, others⟩ := List.forall_mem_cons.mp each
      have rest := commaSeparated (y :: parts) others
      simpa [Json.commaSeparated, separated] using first.append_mark rfl rest

variable {opening closing : Char} {first last : Atom}

theorem brackets (opens : punctuation? opening = some first)
    (closes : punctuation? closing = some last) (layout : Layout text bare atoms) :
    Layout ([opening] ++ text ++ [closing]) ([opening] ++ bare ++ [closing])
      ([first] ++ atoms ++ [last]) :=
  (layout.append_mark closes nil).mark opens

theorem spread (opens : punctuation? opening = some first)
    (closes : punctuation? closing = some last) (indent : Nat) (parts : List α)
    (each : ∀ x ∈ parts, Layout (part x) (part' x) (partAtoms x)) :
    Layout (Json.spread opening closing indent (parts.map part))
      ([opening] ++ Json.commaSeparated (parts.map part') ++ [closing])
      ([first] ++ separated (parts.map partAtoms) ++ [last]) := by
  unfold Json.spread
  split
  · next empty =>
      have none : parts = [] := by simpa using empty
      subst none
      exact brackets opens closes nil
  · have body := commaSeparated parts fun x mem => (each x mem).lineBreak (indent + 2)
    have behind := (nil.mark closes).lineBreak indent
    have feed : isWordChar '\n' = false := by decide
    have layout := (body.append behind fun _ _ => by simp [Closed, Json.lineBreak, feed]).mark opens
    rw [List.map_map, List.append_assoc, List.append_assoc]
    exact layout

end Parts

end Layout

/-! ## Records -/

/-- The atoms of a field. -/
def fieldAtoms (field : Text × Scalar) : List Atom :=
  [.scalar (.string field.1), .colon, .scalar field.2]

/-- The atoms of a record. -/
def Record.atoms (record : Record) : List Atom :=
  [.openObject] ++ Layout.separated (record.map fieldAtoms) ++ [.closeObject]

/-- The atoms of a list of records. -/
def recordsAtoms (records : List Record) : List Atom :=
  [.openArray] ++ Layout.separated (records.map Record.atoms) ++ [.closeArray]

theorem layout_compact (record : Record) : Layout record.compact record.compact record.atoms := by
  refine .brackets rfl rfl (.commaSeparated record fun (name, value) _ => ?_)
  simpa [fieldAtoms] using Layout.append_mark rfl (.string name) (.scalar value)

theorem layout_spread (indent : Nat) (record : Record) :
    Layout (record.spread indent) record.compact record.atoms := by
  refine .spread rfl rfl indent record fun (name, value) _ => ?_
  simpa [fieldAtoms] using Layout.append_mark rfl (.string name) (.space rfl (.scalar value))

theorem layout_spreadRecords (records : List Record) :
    Layout (spreadRecords records)
      (['['] ++ commaSeparated (records.map Record.compact) ++ [']']) (recordsAtoms records) :=
  .spread rfl rfl 0 records fun record _ => layout_spread 2 record

end BooleanLexer.Json
