/-
# BooleanLexer.Cursor.Basic -- a place in a source text

A cursor is a source text and the byte at which reading goes on.  A cursor is a
value: copying it copies the place, and moving one leaves all others where they are.

`scan` reads one item and moves behind it.  `readUntil` and `read` do that again and
again; they answer with all items that they have read and move behind the last one.
When a loop reaches the end of the source, the cursor moves to the end, behind
trailing blanks; a loop that stops before it leaves those blanks unread.
-/
import BooleanLexer.Item.Reading

namespace BooleanLexer

set_option autoImplicit false

/-- A source text and the byte at which reading goes on. -/
structure Cursor where
  source : Text
  /-- The byte at which reading goes on. -/
  position : Nat
deriving DecidableEq

namespace Cursor

/-- A cursor at the start of a text. -/
def new (source : Text) : Cursor := ⟨source, 0⟩

/-- The text that has not been read yet. -/
def rest (cursor : Cursor) : Text := Text.dropBytes cursor.position cursor.source

/-- A cursor behind the last of some items, or where it was if there is none. -/
def behind (cursor : Cursor) (items : List Item) : Cursor :=
  match items.getLast? with
  | some item => { cursor with position := item.span.stop }
  | none => cursor

/-- Reads one item. -/
def scan (cursor : Cursor) : Item × Cursor :=
  let item := Item.first cursor.position cursor.rest
  (item, { cursor with position := item.span.stop })

/-- Reads items up to the first one that `halt` accepts or the end of the source. -/
def readUntil (halt : Item → Bool) (cursor : Cursor) : List Item × Cursor :=
  let items := Item.readUntil halt cursor.position cursor.rest
  (items, cursor.behind items)

/-- Reads all items and the end of the source. -/
def readAll (cursor : Cursor) : List Item × Cursor := cursor.readUntil fun _ => false

/-- Reads `count` items, or fewer if the end of the source comes before. -/
def read (count : Nat) (cursor : Cursor) : List Item × Cursor :=
  let items := Item.read count cursor.position cursor.rest
  (items, cursor.behind items)

end Cursor

end BooleanLexer
