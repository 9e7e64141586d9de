/-
# BooleanLexer.Text.Basic -- texts, their sizes in bytes and checked cuts

A text is a list of Unicode scalar values.  Places in a text are counted in the
bytes of its UTF-8 encoding, so a place may fall inside a character or beyond the
end.  The cuts of this module check that: `dropBytes?` and `takeBytes?` answer
`none` unless the cut lies between two characters, and `slice?` combines them.

The total cuts `dropBytes` and `takeBytes` give the empty text where the checked
ones give `none`.  What a cut leaves over is shorter as soon as it removes a byte
(`length_dropBytes_lt`); loops that read a text piece by piece end by it.
-/
namespace BooleanLexer

set_option autoImplicit false

/-- A text: its Unicode scalar values in order. -/
abbrev Text := List Char

namespace Text

/-- The number of bytes of the UTF-8 encoding of a text. -/
def byteSize (text : Text) : Nat := text.foldr (fun c size => c.utf8Size + size) 0

@[simp] theorem byteSize_nil : byteSize [] = 0 := rfl

@[simp] theorem byteSize_cons (c : Char) (text : Text) :
    byteSize (c :: text) = c.utf8Size + byteSize text := rfl

@[simp] theorem byteSize_append (first second : Text) :
    byteSize (first ++ second) = byteSize first + byteSize second := by
  induction first with
  | nil => rw [List.nil_append, byteSize_nil, Nat.zero_add]
  | cons c first ih => rw [List.cons_append, byteSize_cons, byteSize_cons, ih, Nat.add_assoc]

/-- What remains after the first `count` bytes; `none` if the cut falls inside a
character or beyond the end. -/
def dropBytes? : Nat → Text → Option Text
  | 0, text => some text
  | _ + 1, [] => none
  | count + 1, c :: text =>
      if c.utf8Size ≤ count + 1 then dropBytes? (count + 1 - c.utf8Size) text else none

/-- The first `count` bytes; `none` if the cut falls inside a character or beyond
the end. -/
def takeBytes? : Nat → Text → Option Text
  | 0, _ => some []
  | _ + 1, [] => none
  | count + 1, c :: text =>
      if c.utf8Size ≤ count + 1 then
        (takeBytes? (count + 1 - c.utf8Size) text).map (c :: ·)
      else none

/-- The bytes from `start` to `stop`; `none` if the range is reversed or one of its
ends is no place between two characters. -/
def slice? (text : Text) (start stop : Nat) : Option Text :=
  if start ≤ stop then (dropBytes? start text).bind (takeBytes? (stop - start)) else none

/-- What remains after the first `count` bytes, and nothing where there is no such cut. -/
def dropBytes (count : Nat) (text : Text) : Text := (dropBytes? count text).getD []

/-- The first `count` bytes, and nothing where there is no such cut. -/
def takeBytes (count : Nat) (text : Text) : Text := (takeBytes? count text).getD []

theorem length_le_of_dropBytes? {count : Nat} {text rest : Text}
    (cut : dropBytes? count text = some rest) : rest.length ≤ text.length := by
  fun_induction dropBytes? count text with
  | case1 => simp_all
  | case2 => simp at cut
  | case3 count c text fits ih => exact Nat.le_succ_of_le (ih cut)
  | case4 => simp at cut

theorem length_dropBytes_le (count : Nat) (text : Text) :
    (dropBytes count text).length ≤ text.length := by
  unfold dropBytes
  cases cut : dropBytes? count text with
  | none => simp
  | some rest => exact length_le_of_dropBytes? cut

/-- A cut that removes at least one byte leaves a shorter text. -/
theorem length_dropBytes_lt {count : Nat} {text : Text} (some_bytes : 0 < count)
    (nonempty : text ≠ []) : (dropBytes count text).length < text.length := by
  obtain ⟨count, rfl⟩ : ∃ n, count = n + 1 := ⟨count - 1, by omega⟩
  cases text with
  | nil => contradiction
  | cons c text =>
      have shorter := length_dropBytes_le (count + 1 - c.utf8Size) text
      unfold dropBytes dropBytes?
      split
      · exact Nat.lt_succ_of_le shorter
      · simp

/-- A decimal number, without leading zeros. -/
def decimal (n : Nat) : Text := Nat.toDigits 10 n

/-- A hexadecimal number in lower case, without leading zeros. -/
def hexadecimal (n : Nat) : Text := Nat.toDigits 16 n

end Text

end BooleanLexer
