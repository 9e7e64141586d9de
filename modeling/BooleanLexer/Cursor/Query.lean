/-
# BooleanLexer.Cursor.Query -- what a cursor can be asked

A cursor is a stream of the items of its source.  The stream yields every item but
the end, also unknown characters, and is exhausted from then on.  The queries of this
module take items from the stream one by one, so they differ in how far the cursor
moves: one that exhausts the stream moves to the end of the source, one that has
enough before that stops right behind the last item that it took.

Each reply lists the items that were read for it, from which a log is made.
-/
import BooleanLexer.Cursor.Basic
import BooleanLexer.Tokenize

namespace BooleanLexer.Cursor

set_option autoImplicit false

/-- A question to a cursor. -/
inductive Query where
  | nextToken
  | scan
  | next
  | position
  | rest
  | source
  /-- Take the item behind the next `count` ones. -/
  | nth (count : Nat)
  | take (count : Nat)
  | collect
  | count
  | last
  | find (kind : Kind)
  /-- Read tokens up to the first one that is terminal, as a parser does. -/
  | untilTerminal
  | literals
  | errors
  /-- Tokenize the text that is left to read, without moving. -/
  | tokenizeRest
deriving DecidableEq

/-- An answer to a question. -/
inductive Answer where
  | token (token : Token)
  | item (item : Item)
  /-- An item of the stream, or nothing if the stream is exhausted. -/
  | item? (item : Option Item)
  | number (number : Nat)
  | text (text : Text)
  | items (items : List Item)
  | tokens (tokens : List Token)
  | literals (literals : List Literal)
  | errors (errors : List Unexpected)
  | tokenized (result : Except Unexpected (List Token))

/-- What asking a cursor gives. -/
structure Reply where
  answer : Answer
  visited : List Item
  cursor : Cursor

/-- The items that the stream yields among those that were read. -/
def yielded (visited : List Item) : List Item := visited.filter fun item => !item.isFinish

/-- Answers a question from the items that were read for it. -/
def Reply.ofVisited (answer : List Item → Answer) (read : List Item × Cursor) : Reply :=
  ⟨answer read.1, read.1, read.2⟩

/-- Answers a question and moves the cursor. -/
def ask (cursor : Cursor) : Query → Reply
  | .nextToken => let (item, moved) := cursor.scan; ⟨.token item.token, [item], moved⟩
  | .scan => let (item, moved) := cursor.scan; ⟨.item item, [item], moved⟩
  | .next =>
      let (item, moved) := cursor.scan
      ⟨.item? (if item.isFinish then none else some item), [item], moved⟩
  | .position => ⟨.number cursor.position, [], cursor⟩
  | .rest => ⟨.text cursor.rest, [], cursor⟩
  | .source => ⟨.text cursor.source, [], cursor⟩
  | .nth count => .ofVisited (fun items => .item? (yielded items)[count]?) (cursor.read (count + 1))
  | .take count => .ofVisited (fun items => .items (yielded items)) (cursor.read count)
  | .collect => .ofVisited (fun items => .items (yielded items)) cursor.readAll
  | .count => .ofVisited (fun items => .number (yielded items).length) cursor.readAll
  | .last => .ofVisited (fun items => .item? (yielded items).getLast?) cursor.readAll
  | .find kind =>
      .ofVisited (fun items => .item? ((yielded items).find? fun item => item.token.kind = kind))
        (cursor.readUntil fun item => item.token.kind = kind)
  | .untilTerminal =>
      .ofVisited (fun items => .tokens (items.map Item.token))
        (cursor.readUntil fun item => item.token.isTerminal)
  | .literals =>
      .ofVisited (fun items => .literals ((yielded items).filterMap fun item => item.token.literal?))
        cursor.readAll
  | .errors =>
      .ofVisited (fun items => .errors ((yielded items).filterMap Item.error?)) cursor.readAll
  | .tokenizeRest => ⟨.tokenized (tokenize cursor.rest), tokenizeItems cursor.rest, cursor⟩

end BooleanLexer.Cursor
