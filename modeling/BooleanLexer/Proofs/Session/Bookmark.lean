/-
# BooleanLexer.Proofs.Session.Bookmark -- a session without any reading

A bookmark is an index into the list of all items of a source, and whether the end of
the source has been seen.  What a question to a cursor gives can be told from the list
alone: `demand` is the number of items that the question takes, one more than are left
if it takes the end too, `answer` is an operation on the items that are left, and
`advance` moves the bookmark.

`Bookmarks.run` makes the steps of a session on bookmarks.
-/
import BooleanLexer.Proofs.Item.Shift
import BooleanLexer.Session

namespace BooleanLexer

set_option autoImplicit false

open Cursor (Query Answer)

/-- Where reading goes on behind `items` that were read at `position`. -/
def Item.endOf (position : Nat) (items : List Item) : Nat :=
  items.getLast?.elim position fun item => item.span.stop

/-- An item that stands `count` bytes further back. -/
def Item.shiftBack (count : Nat) (item : Item) : Item :=
  { item with span := ⟨item.span.start - count, item.span.stop - count⟩ }

/-- A place in the list of all items of a source. -/
structure Bookmark where
  source : Text
  /-- How many items have been taken. -/
  taken : Nat
  /-- Whether the end of the source has been seen. -/
  finished : Bool
  taken_le : taken ≤ (Item.stream 0 source).length
  taken_of_finished : finished = true → taken = (Item.stream 0 source).length

namespace Bookmark

/-- A bookmark in front of the first item. -/
def start (source : Text) : Bookmark := ⟨source, 0, false, Nat.zero_le _, nofun⟩

/-- A bookmark behind the end. -/
def exhausted (source : Text) : Bookmark :=
  ⟨source, (Item.stream 0 source).length, true, Nat.le_refl _, fun _ => rfl⟩

/-- All items of the source. -/
def items (mark : Bookmark) : List Item := Item.stream 0 mark.source

/-- The items that have not been taken. -/
def left (mark : Bookmark) : List Item := mark.items.drop mark.taken

/-- The end of the source, as an item. -/
def finish (mark : Bookmark) : Item := Item.atEnd (Text.byteSize mark.source)

/-- The end of the source if it has been seen, and otherwise the end of the last item that
has been taken, or zero if none has. -/
def position (mark : Bookmark) : Nat :=
  if mark.finished then Text.byteSize mark.source else Item.endOf 0 (mark.items.take mark.taken)

/-- The cursor that a bookmark describes. -/
def cursor (mark : Bookmark) : Cursor := ⟨mark.source, mark.position⟩

theorem length_left (mark : Bookmark) : mark.left.length = mark.items.length - mark.taken :=
  List.length_drop

theorem left_of_finished {mark : Bookmark} (finished : mark.finished = true) : mark.left = [] := by
  rw [left, mark.taken_of_finished finished, items, List.drop_length]

/-- Takes `count` items, or all of them and the end if there are not so many. -/
def advance (mark : Bookmark) (count : Nat) : Bookmark :=
  if within : count ≤ mark.left.length then
    { mark with
      taken := mark.taken + count
      taken_le := by
        have := mark.taken_le
        rw [length_left] at within
        unfold items at within
        omega
      taken_of_finished := fun finished => by
        rw [left_of_finished finished, List.length_nil, Nat.le_zero] at within
        rw [within, Nat.add_zero, mark.taken_of_finished finished] }
  else exhausted mark.source

/-- How many items a question takes. -/
def demand (mark : Bookmark) : Query → Nat
  | .position | .rest | .source | .tokenizeRest => 0
  | .nextToken | .scan | .next => 1
  | .nth count => count + 1
  | .take count => count
  | .find kind => mark.left.findIdx (fun item => item.token.kind = kind) + 1
  | .untilTerminal => mark.left.findIdx (fun item => item.token.isTerminal) + 1
  | .collect | .count | .last | .literals | .errors => mark.left.length + 1

/-- All tokens that are left, or the first error among them, which is counted from here. -/
def tokenized (mark : Bookmark) : Except Unexpected (List Token) :=
  match mark.left.findSome? Item.error? with
  | some error => .error { error with offset := error.offset - mark.position }
  | none => .ok (mark.left.map Item.token ++ [.finish])

/-- The answer to a question. -/
def answer (mark : Bookmark) : Query → Answer
  | .nextToken => .token (mark.left.head?.getD mark.finish).token
  | .scan => .item (mark.left.head?.getD mark.finish)
  | .next => .item? mark.left.head?
  | .position => .number mark.position
  | .rest => .text (Text.dropBytes mark.position mark.source)
  | .source => .text mark.source
  | .nth count => .item? mark.left[count]?
  | .take count => .items (mark.left.take count)
  | .collect => .items mark.left
  | .count => .number mark.left.length
  | .last => .item? mark.left.getLast?
  | .find kind => .item? (mark.left.find? fun item => item.token.kind = kind)
  | .untilTerminal =>
      .tokens (((mark.left ++ [mark.finish]).take (mark.demand .untilTerminal)).map Item.token)
  | .literals => .literals (mark.left.filterMap fun item => item.token.literal?)
  | .errors => .errors (mark.left.filterMap Item.error?)
  | .tokenizeRest => .tokenized mark.tokenized

/-- The items that are read for a question: those that it takes, or, to tokenize what is
left, those up to the first error, counted from here. -/
def visited (mark : Bookmark) : Query → List Item
  | .tokenizeRest =>
      ((mark.left ++ [mark.finish]).take
        (mark.left.findIdx (fun item => item.error?.isSome) + 1)).map
        (Item.shiftBack mark.position)
  | query => (mark.left ++ [mark.finish]).take (mark.demand query)

/-- The bookmark after a question. -/
def moved (mark : Bookmark) (query : Query) : Bookmark := mark.advance (mark.demand query)

end Bookmark

namespace Bookmarks

open Session (Step Reply)

/-- Makes one step of a session. -/
def step (marks : List Bookmark) : Step → Option (Reply × List Bookmark)
  | .start source => some (⟨.made marks.length, 0, []⟩, marks ++ [.start source])
  | .copy slot =>
      marks[slot]?.map fun mark => (⟨.made marks.length, mark.position, []⟩, marks ++ [mark])
  | .ask slot query =>
      marks[slot]?.map fun mark =>
        (⟨.answered (mark.answer query), (mark.moved query).position, mark.visited query⟩,
          marks.set slot (mark.moved query))

/-- Makes steps one after the other; `none` if one of them names no bookmark. -/
def run (marks : List Bookmark) : List Step → Option (List Reply × List Bookmark)
  | [] => some ([], marks)
  | step :: steps =>
      (Bookmarks.step marks step).bind fun (reply, marks) =>
        (run marks steps).map fun (replies, marks) => (reply :: replies, marks)

end Bookmarks

end BooleanLexer
