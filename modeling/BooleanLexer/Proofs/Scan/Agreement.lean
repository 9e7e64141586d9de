/-
# BooleanLexer.Proofs.Scan.Agreement -- one list of errors for all who read a source

The stream of a source, a scan of it and tokenizing it are loops with different ends: one
goes on behind an error, one keeps the first error in mind, and one stops there.  They agree
on what is wrong, and that is told by the characters alone: `Text.unexpected` goes through a
source without any tokens (`consumers_agree`).
-/
import BooleanLexer.Proofs.Cursor.Loops
import BooleanLexer.Proofs.Item.Errors

namespace BooleanLexer

set_option autoImplicit false

open Text (byteSize unexpected)

theorem findSome?_error?_stream (position : Nat) (text : Text) :
    (Item.stream position text).findSome? Item.error? = (unexpected position text).head? := by
  rw [← Item.filterMap_error?_stream, List.head?_filterMap]

namespace Scan

theorem items_ofText (source : Text) :
    (Listing.ofText source).items = Item.stream 0 source ++ [Item.atEnd (byteSize source)] := by
  change Item.readAll 0 source = _
  rw [Item.readAll_eq_stream_append, Nat.zero_add]

/-- Tokenizing fails at the first unexpected character and otherwise gives all tokens. -/
theorem tokenize_eq_match (source : Text) :
    tokenize source = match unexpected 0 source with
      | error :: _ => .error error
      | [] => .ok ((Listing.ofText source).items.map Item.token) := by
  rw [tokenize_eq, findSome?_error?_stream, items_ofText]
  cases unexpected 0 source with
  | nil => simp [Item.atEnd]
  | cons error later => rfl

/-- **All who read a source report the same errors, and these are its unexpected
characters.** -/
theorem consumers_agree (source : Text) :
    ∃ items, (∀ yielded, (Cursor.new source).Yields yielded ↔ yielded = items) ∧
      items.filterMap Item.error? = unexpected 0 source ∧
      (Listing.ofText source).error? = (unexpected 0 source).head? ∧
      (Listing.ofText source).items = items ++ [Item.atEnd (byteSize source)] ∧
      tokenize source = match unexpected 0 source with
        | error :: _ => .error error
        | [] => .ok ((Listing.ofText source).items.map Item.token) := by
  refine ⟨Item.stream 0 source, fun yielded => ?_, Item.filterMap_error?_stream 0 source,
    Listing.error?_ofText source, items_ofText source, tokenize_eq_match source⟩
  rw [Cursor.yields_iff (Cursor.placed_new source), Cursor.rest_new]
  rfl

end Scan

end BooleanLexer
