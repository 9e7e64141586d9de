/-
# BooleanLexer.Proofs.Cursor.Runs -- scanning again and again

A cursor is `Placed` when it stands between two characters of its source.  A new one
does, and scanning keeps it there, in front of what the item has left over
(`Placed.scan`).  `Scans` is a run of scans from a cursor up to the first one that finds
the end of the source; it comes to an end from every placed cursor, in one way
(`scans_iff_eq_readAll`), and from the start of a source it gives the listing of the
grammar and nothing else (`scans_iff_lexical`).
-/
import BooleanLexer.Cursor.Basic
import BooleanLexer.Proofs.Item.Division
import Mathlib.Logic.ExistsUnique

namespace BooleanLexer

set_option autoImplicit false

namespace Cursor

/-- Whether a cursor stands between two characters of its source, or at one of its ends. -/
def Placed (cursor : Cursor) : Prop :=
  Text.dropBytes? cursor.position cursor.source = some cursor.rest

/-- The results of scanning up to the first one that is the end of the source. -/
inductive Scans : Cursor → List Item → Prop where
  /-- The end is found at once. -/
  | finish {cursor : Cursor} : cursor.scan.1.isFinish = true → Scans cursor [cursor.scan.1]
  /-- A token is found, and scanning goes on behind it. -/
  | token {cursor : Cursor} {items : List Item} : cursor.scan.1.isFinish = false →
      Scans cursor.scan.2 items → Scans cursor (cursor.scan.1 :: items)

theorem placed_new (source : Text) : (new source).Placed := by
  simp [Placed, new, rest, Text.dropBytes, Text.dropBytes?]

@[simp] theorem rest_new (source : Text) : (new source).rest = source := by
  simp [new, rest, Text.dropBytes, Text.dropBytes?]

/-- A cursor stands where what remains is divided from what it has passed. -/
theorem placed_of_append {source second : Text} {position : Nat} (first : Text)
    (divided : source = first ++ second) (size : Text.byteSize first = position) :
    (Cursor.mk source position).Placed ∧ (Cursor.mk source position).rest = second := by
  have cut : Text.dropBytes? position source = some second :=
    Text.dropBytes?_eq_some_iff.mpr ⟨first, divided, size⟩
  have rest : (Cursor.mk source position).rest = second := by
    simp only [Cursor.rest, Text.dropBytes, cut, Option.getD_some]
  exact ⟨by rw [Placed, rest]; exact cut, rest⟩

/-- What has been passed and what remains are the whole source. -/
theorem Placed.byteSize_source {cursor : Cursor} (placed : cursor.Placed) :
    Text.byteSize cursor.source = cursor.position + Text.byteSize cursor.rest := by
  obtain ⟨passed, divided, size⟩ := Text.dropBytes?_eq_some_iff.mp placed
  rw [← size, ← Text.byteSize_append, ← divided]

/-- Scanning leads from one place between two characters to another. -/
theorem Placed.scan {cursor : Cursor} (placed : cursor.Placed) :
    cursor.scan.2.Placed ∧ cursor.scan.2.rest = Item.afterFirst cursor.position cursor.rest := by
  obtain ⟨passed, divided, size⟩ := Text.dropBytes?_eq_some_iff.mp placed
  obtain ⟨taken, rest_divided, stop⟩ := Item.exists_append_afterFirst cursor.position cursor.rest
  apply placed_of_append (passed ++ taken)
  · rw [List.append_assoc, ← rest_divided]
    exact divided
  · rw [Text.byteSize_append, size, stop]

/-- Scanning comes to an end, and what it gives is what is read in one go. -/
theorem scans_readAll {cursor : Cursor} (placed : cursor.Placed) :
    cursor.Scans (Item.readAll cursor.position cursor.rest) := by
  generalize size : cursor.rest.length = count
  induction count using Nat.strong_induction_on generalizing cursor with
  | _ count ih =>
      obtain ⟨placed', rest'⟩ := placed.scan
      rw [Item.readAll_eq]
      split
      · next finished => exact .finish finished
      · next unfinished =>
          have shorter := Item.length_afterFirst_lt (Bool.eq_false_iff.mpr unfinished)
          rw [← rest']
          exact .token (Bool.eq_false_iff.mpr unfinished)
            (ih _ (by rw [rest', ← size]; exact shorter) placed' rfl)

theorem scans_iff_eq_readAll {cursor : Cursor} (placed : cursor.Placed) {items : List Item} :
    cursor.Scans items ↔ items = Item.readAll cursor.position cursor.rest := by
  constructor
  · intro scans
    induction scans with
    | finish finished =>
        rw [Item.readAll_eq]
        exact (if_pos finished).symm
    | @token cursor items unfinished _ ih =>
        have unfinished : ¬ (Item.first cursor.position cursor.rest).isFinish = true :=
          Bool.eq_false_iff.mp unfinished
        rw [Item.readAll_eq, if_neg unfinished, ih placed.scan.1, placed.scan.2]
        rfl
  · rintro rfl
    exact scans_readAll placed

theorem scans_new_iff {source : Text} {items : List Item} :
    (new source).Scans items ↔ items = Item.readAll 0 source := by
  rw [scans_iff_eq_readAll (placed_new source), rest_new]
  rfl

/-- **Scanning a source accepts exactly its grammar, and the grammar is unambiguous.**
What a new cursor finds up to the end of its source is the one listing of the source. -/
theorem scans_iff_lexical (source : Text) :
    (∀ items, (new source).Scans items ↔ Lexical source items) ∧
      ∃! items, Lexical source items := by
  simp only [scans_iff_eq_readAll (placed_new source), rest_new, lexical_iff_eq_readAll]
  exact ⟨fun items => Iff.rfl, _, rfl, fun items same => same⟩

end Cursor

end BooleanLexer
