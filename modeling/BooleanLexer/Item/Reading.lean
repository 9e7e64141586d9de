/-
# BooleanLexer.Item.Reading -- the items of a text, one after the other

`first` reads one item: it skips blanks and takes the lexeme that follows, or the
end of the text.  The offsets of its span count from the place at which the text
stands in a larger one.

`readUntil` and `read` read on from where the item before ended and list every item
that they read.  Both stop at the end of the text, which is then the last item of
the list; `readUntil` also stops after an item that the caller is looking for, and
`read` after a given number of items.  Each item but the end takes at least one byte
(`length_afterFirst_lt`), so `readUntil` comes to an end.
-/
import BooleanLexer.Item.Basic
import BooleanLexer.Lexeme
import BooleanLexer.Text.Blank

namespace BooleanLexer.Item

set_option autoImplicit false

/-- The first item of a text that stands at `position`. -/
def first (position : Nat) (text : Text) : Item :=
  let start := position + Text.byteSize (Text.leadingBlanks text)
  match Text.skipBlanks text with
  | [] => ⟨.finish, ⟨start, start⟩⟩
  | c :: rest =>
      let lexeme := Lexeme.ofHead c rest.head?
      ⟨lexeme.token, ⟨start, start + lexeme.width⟩⟩

/-- What remains of a text at `position` behind its first item. -/
def afterFirst (position : Nat) (text : Text) : Text :=
  Text.dropBytes ((first position text).span.stop - position) text

theorem lt_stop_first {position : Nat} {text : Text}
    (unfinished : (first position text).isFinish = false) :
    position < (first position text).span.stop := by
  unfold first at unfinished ⊢
  split at unfinished
  · simp [isFinish, Token.finish] at unfinished
  · next c rest _ =>
      have := Lexeme.width_pos c rest.head?
      simp only
      omega

/-- Behind an item that is not the end of the text, less remains. -/
theorem length_afterFirst_lt {position : Nat} {text : Text}
    (unfinished : (first position text).isFinish = false) :
    (afterFirst position text).length < text.length := by
  have progress := lt_stop_first unfinished
  apply Text.length_dropBytes_lt (by omega)
  rintro rfl
  simp [first, Text.skipBlanks, isFinish, Token.finish] at unfinished

/-- The items of a text at `position`, up to the first one that `halt` accepts or the
end of the text, that one included. -/
def readUntil (halt : Item → Bool) (position : Nat) (text : Text) : List Item :=
  let item := first position text
  if item.isFinish || halt item then [item]
  else item :: readUntil halt item.span.stop (afterFirst position text)
termination_by text.length
decreasing_by
  next goes_on => exact length_afterFirst_lt (by simp at goes_on; exact goes_on.1)

/-- All items of a text at `position`, with the end of the text. -/
def readAll (position : Nat) (text : Text) : List Item := readUntil (fun _ => false) position text

/-- The first `count` items of a text at `position`, or fewer if its end comes before;
the end counts as one. -/
def read : Nat → Nat → Text → List Item
  | 0, _, _ => []
  | count + 1, position, text =>
      let item := first position text
      if item.isFinish then [item]
      else item :: read count item.span.stop (afterFirst position text)

end BooleanLexer.Item
