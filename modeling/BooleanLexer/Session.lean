/-
# BooleanLexer.Session -- several cursors side by side

A session holds numbered cursors.  A step opens a cursor on a new text, copies one,
or asks one a question; only the cursor that a step names can move, and a cursor is
never removed, so the number of a cursor stays valid.  A step that names a cursor
which does not exist is refused.
-/
import BooleanLexer.Cursor.Query

namespace BooleanLexer

set_option autoImplicit false

/-- Cursors, numbered by their place in the list. -/
structure Session where
  cursors : List Cursor
deriving DecidableEq

namespace Session

/-- A session with one cursor, at the start of `source`. -/
def new (source : Text) : Session := ⟨[.new source]⟩

/-- One step of a session. -/
inductive Step where
  | start (source : Text)
  | copy (slot : Nat)
  | ask (slot : Nat) (query : Cursor.Query)
deriving DecidableEq

/-- What a step gives. -/
inductive Result where
  | made (slot : Nat)
  | answered (answer : Cursor.Answer)

/-- What making a step gives. -/
structure Reply where
  result : Result
  /-- Where the cursor of the step stands afterwards. -/
  position : Nat
  visited : List Item

/-- Adds a cursor and replies with its number. -/
def add (session : Session) (cursor : Cursor) : Reply × Session :=
  (⟨.made session.cursors.length, cursor.position, []⟩, ⟨session.cursors ++ [cursor]⟩)

/-- Makes one step; `none` if it names no cursor of the session. -/
def step (session : Session) : Step → Option (Reply × Session)
  | .start source => some (session.add (.new source))
  | .copy slot => session.cursors[slot]?.map session.add
  | .ask slot query =>
      session.cursors[slot]?.map fun cursor =>
        let reply := cursor.ask query
        (⟨.answered reply.answer, reply.cursor.position, reply.visited⟩,
          ⟨session.cursors.set slot reply.cursor⟩)

/-- Makes steps one after the other; `none` if one of them is refused. -/
def run (session : Session) : List Step → Option (List Reply × Session)
  | [] => some ([], session)
  | step :: steps => do
      let (reply, session) ← session.step step
      let (replies, session) ← session.run steps
      return (reply :: replies, session)

end Session

end BooleanLexer
