/-
# BooleanLexer.Proofs.Checked.Report -- nothing is ever refused

A report in text format cuts the source at the spans of its items, which have been computed long
before, and it makes and spells the literals of letters once more.  `render` does so with checks.
The items of a source span parts of it (`cut_of_mem_entries`), so no line traps (`line_eq_ok`).

With the modules before, `never_traps` says of the whole library that no operation on words and
no cut is refused: not in any session, not when a source is listed, tokenized or reported on, and
not for any literal.  In each case the checked result is the one that the library gives.
-/
import BooleanLexer.Proofs.Checked.Reading
import BooleanLexer.Proofs.Report.Entries
import BooleanLexer.Scan.Listing

namespace BooleanLexer.Checked

set_option autoImplicit false

open Text (isBlank byteSize)
open Report (entries)

/-! ## Lines -/

/-- The column of what an item is written with, which is empty for the end of the source. -/
def spannedColumn (source : Text) (span : Span) : Except Trap Text :=
  if span.start < span.stop then do
    let part ← cut source span.start span.stop
    return "  ".toList ++ Text.quoted part
  else return []

/-- The column of a literal, which is empty for any token but a letter. -/
def literalColumn (token : Token) : Except Trap Text := do
  match ← literal? token with
  | some packed =>
      let letter ← packed.letter
      return "  ".toList ++ if packed.negated then "NOT ".toList ++ [letter.toLower] else [letter]
  | none => return []

/-- The line of an item in a report on `source`. -/
def line (source : Text) (item : Item) : Except Trap Text := do
  let spanned ← spannedColumn source item.span
  let literal ← literalColumn item.token
  return List.leftpad 4 ' ' (Text.decimal item.span.start) ++ "  ".toList ++ item.token.display ++
    spanned ++ literal ++ ['\n']

/-- The report on the items of a source.  The structured formats cut nothing. -/
def render (format : Report.Format) (source : Text) (items : List Item) : Except Trap Text :=
  match format with
  | .text => do
      let lines ← items.mapM (line source)
      return lines.flatten
  | .json | .ndjson => return Report.render format source items

theorem spannedColumn_eq_ok {source part : Text} {span : Span}
    (held : cut source span.start span.stop = .ok part) :
    spannedColumn source span =
      .ok (if span.size = 0 then [] else "  ".toList ++ Text.quoted part) := by
  unfold spannedColumn Span.size
  by_cases nonempty : span.start < span.stop
  · rw [if_pos nonempty, if_neg (by omega)]
    exact bind_eq_ok_iff.mpr ⟨_, held, rfl⟩
  · rw [if_neg nonempty, if_pos (by omega)]
    rfl

theorem toLower_letter_of_negated {literal : Literal} (negated : literal.negated = true) :
    literal.letter.toLower = literal.plainLetter := by
  have table : ∀ var : Fin letterCount,
      (Literal.letter ⟨var, true⟩).toLower = Literal.plainLetter ⟨var, true⟩ := by decide
  obtain ⟨var, _⟩ := literal
  obtain rfl := negated
  exact table var

theorem literalColumn_eq_ok (token : Token) :
    literalColumn token = .ok (token.literal?.elim [] fun literal =>
      "  ".toList ++ Report.literalColumn literal) := by
  refine bind_eq_ok_iff.mpr ⟨_, literal?_eq_ok token, ?_⟩
  cases token.literal? with
  | none => rfl
  | some literal =>
      refine bind_eq_ok_iff.mpr ⟨_, letter_pack literal, ?_⟩
      have column : (if literal.negated then "NOT ".toList ++ [literal.letter.toLower]
          else [literal.letter]) = Report.literalColumn literal := by
        unfold Report.literalColumn
        split
        · next negated => rw [toLower_letter_of_negated negated]
        · rfl
      exact congrArg (fun shown => Except.ok ("  ".toList ++ shown)) column

theorem line_eq_ok {source part : Text} {item : Item}
    (held : cut source item.span.start item.span.stop = .ok part) :
    line source item = .ok (Report.line item part) :=
  bind_eq_ok_iff.mpr ⟨_, spannedColumn_eq_ok held,
    bind_eq_ok_iff.mpr ⟨_, literalColumn_eq_ok item.token, rfl⟩⟩

/-! ## Reports -/

/-- What an item is written with can be cut out of the whole source. -/
theorem cut_of_mem_entries (before text : Text) :
    ∀ entry ∈ entries (byteSize before) text,
      cut (before ++ text) entry.1.span.start entry.1.span.stop = .ok entry.2 := by
  induction text using Text.reading_induction generalizing before with
  | nil =>
      intro entry mem
      rw [Report.entries_nil, List.mem_singleton] at mem
      subst mem
      have nothing := cut_append before [] []
      rw [List.append_nil] at nothing
      exact nothing
  | blank c rest blank ih =>
      intro entry mem
      have moved : byteSize before + c.utf8Size = byteSize (before ++ [c]) := by simp
      rw [Report.entries_cons_blank _ blank, moved] at mem
      have held := ih (before ++ [c]) entry mem
      rw [List.append_assoc] at held
      exact held
  | lexeme c rest solid ih =>
      intro entry mem
      rw [Report.entries_cons _ solid, ← Text.byteSize_append] at mem
      rw [← Lexeme.written_append_after c rest, ← List.append_assoc]
      rcases List.mem_cons.mp mem with rfl | mem
      · rw [Text.byteSize_append]
        exact cut_append before _ _
      · exact ih (before ++ Lexeme.written c rest) entry mem

theorem mapM_eq_ok {α β : Type} {f : α → Except Trap β} {g : α → β} {values : List α}
    (each : ∀ value ∈ values, f value = .ok (g value)) : values.mapM f = .ok (values.map g) := by
  induction values with
  | nil => rfl
  | cons value values ih =>
      rw [List.mapM_cons]
      exact bind_eq_ok_iff.mpr ⟨_, each value List.mem_cons_self,
        bind_eq_ok_iff.mpr ⟨_, ih fun other mem => each other (List.mem_cons_of_mem _ mem), rfl⟩⟩

theorem items_eq_map_entries (source : Text) :
    (Scan.Listing.ofText source).items = (entries 0 source).map Prod.fst :=
  (Report.map_fst_entries 0 source).symm

theorem render_eq_ok (format : Report.Format) (source : Text) :
    render format source (Scan.Listing.ofText source).items =
      .ok (Report.render format source (Scan.Listing.ofText source).items) := by
  cases format with
  | text =>
      have lines : (Scan.Listing.ofText source).items.mapM (line source) =
          .ok ((entries 0 source).map fun entry => Report.line entry.1 entry.2) := by
        rw [items_eq_map_entries, List.mapM_map]
        exact mapM_eq_ok fun entry mem => line_eq_ok (cut_of_mem_entries [] source entry mem)
      rw [← Report.lines_readAll] at lines
      exact bind_eq_ok_iff.mpr ⟨_, lines, rfl⟩
  | json | ndjson => rfl

theorem exists_cut_of_mem_items {source : Text} {item : Item}
    (mem : item ∈ (Scan.Listing.ofText source).items) :
    ∃ part, cut source item.span.start item.span.stop = .ok part := by
  rw [items_eq_map_entries] at mem
  obtain ⟨entry, listed, rfl⟩ := List.mem_map.mp mem
  exact ⟨entry.2, cut_of_mem_entries [] source entry listed⟩

/-- **No operation is ever refused.**  Every cursor of every session divides its source, reading
any number of items from it succeeds as long as the size of the source is a word, and leads to a
cursor that divides the source again; every question moves the cursor by reading.  Sources are
listed and tokenized by reading.  The span of each item that is listed can be cut out of the
source, and every report succeeds.  The index of a letter is computed, and literals are made,
numbered and spelled, without a sum, a difference or a cast that does not fit.  All of this gives
what the library gives. -/
theorem never_traps :
    (∀ (source : Text) (steps : List Session.Step) (replies : List Session.Reply)
        (session : Session), (Session.new source).run steps = some (replies, session) →
      ∀ cursor ∈ session.cursors, Divides cursor ∧
        ∀ greatest, byteSize cursor.source ≤ greatest →
          (∀ count, read greatest count cursor = .ok (cursor.read count) ∧
            Divides (cursor.read count).2) ∧
          ∀ query, ∃ count items,
            read greatest count cursor = .ok (items, (cursor.ask query).cursor)) ∧
    (∀ (source : Text) (greatest : Nat), byteSize source ≤ greatest →
      (∃ count last,
        read greatest count (.new source) = .ok ((Scan.Listing.ofText source).items, last)) ∧
      ∃ count last, read greatest count (.new source) = .ok (tokenizeItems source, last)) ∧
    (∀ (source : Text) (format : Report.Format),
      (∀ item ∈ (Scan.Listing.ofText source).items,
        ∃ part, cut source item.span.start item.span.stop = .ok part) ∧
      render format source (Scan.Listing.ofText source).items =
        .ok (Report.render format source (Scan.Listing.ofText source).items)) ∧
    (∀ c next?, ofHead c next? = .ok (Lexeme.ofHead c next?)) ∧
    (∀ var negated, ofVar var negated = .ok ((Literal.ofVar? var negated).map pack)) ∧
    (∀ index, ofIndex index = .ok ((Literal.ofIndex? index).map pack)) ∧
    ∀ literal, (pack literal).index = .ok literal.index ∧
      (pack literal).letter = .ok literal.letter := by
  refine ⟨fun source steps replies session ran cursor mem => ?_, fun source greatest fits => ?_,
    fun source format => ⟨fun item => exists_cut_of_mem_items, render_eq_ok format source⟩,
    ofHead_eq_ok, ofVar_eq_ok, ofIndex_eq_ok, fun literal => ⟨index_pack literal, letter_pack literal⟩⟩
  · have placed : cursor.Placed := Session.placed_of_run ran cursor mem
    refine ⟨divides_of_placed placed, fun greatest fits => ⟨fun count => ?_, fun query => ?_⟩⟩
    · obtain ⟨reads, moved⟩ := read_eq_ok placed fits count
      exact ⟨reads, divides_of_placed moved⟩
    · obtain ⟨count, asked⟩ := cursor.exists_read_of_ask query
      exact ⟨count, (cursor.read count).1, asked ▸ (read_eq_ok placed fits count).1⟩
  · exact ⟨exists_read_of_readUntil (fun _ => false) fits, exists_read_of_readUntil _ fits⟩

/-- The copy of a cursor behind a character of three bytes, and then behind a doubled operator. -/
theorem never_traps_behind_wide_character :
    let source : Text := ['€', '|', '|', 'Z']
    let cursor : Cursor := ⟨source, 5⟩
    (∃ replies, (Session.new source).run [.ask 0 .scan, .copy 0, .ask 1 .next] =
        some (replies, ⟨[⟨source, 3⟩, cursor]⟩)) ∧
      Divides cursor ∧ byteSize source ≤ 6 ∧
      read 6 2 cursor =
        .ok ([⟨.ident 'Z' 51, ⟨5, 6⟩⟩, ⟨.finish, ⟨6, 6⟩⟩], ⟨source, 6⟩) ∧
      ∃ count last, read 6 count (.new source) = .ok ((Scan.Listing.ofText source).items, last) := by
  intro source cursor
  obtain ⟨sessions, sources, -⟩ := never_traps
  have ran : (Session.new source).run [.ask 0 .scan, .copy 0, .ask 1 .next] =
      some (_, ⟨[⟨source, 3⟩, cursor]⟩) := rfl
  have fits : byteSize source ≤ 6 := by decide
  obtain ⟨divides, reading⟩ := sessions _ _ _ _ ran cursor (by simp)
  refine ⟨⟨_, ran⟩, divides, fits, ?_, (sources source 6 fits).1⟩
  rw [((reading 6 fits).1 2).1]
  decide +kernel

end BooleanLexer.Checked
