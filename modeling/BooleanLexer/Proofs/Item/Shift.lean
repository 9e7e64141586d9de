/-
# BooleanLexer.Proofs.Item.Shift -- the same text at another place

What is read from a text does not depend on where the text stands, except that all
offsets move along with it (`readAll_add`, `stream_add`).
-/
import BooleanLexer.Proofs.Item.Steps
import BooleanLexer.Tokenize

namespace BooleanLexer

set_option autoImplicit false

/-- A span that stands `count` bytes further on. -/
def Span.shift (count : Nat) (span : Span) : Span := ⟨count + span.start, count + span.stop⟩

/-- An error that stands `count` bytes further on. -/
def Unexpected.shift (count : Nat) (error : Unexpected) : Unexpected :=
  { error with offset := count + error.offset }

namespace Item

/-- An item that stands `count` bytes further on. -/
def shift (count : Nat) (item : Item) : Item := { item with span := item.span.shift count }

@[simp] theorem token_shift (count : Nat) (item : Item) : (item.shift count).token = item.token :=
  rfl

theorem error?_shift (count : Nat) (item : Item) :
    (item.shift count).error? = item.error?.map (Unexpected.shift count) := by
  unfold error?
  rw [token_shift]
  split <;> simp_all [shift, Span.shift, Unexpected.shift]

theorem readAll_add (count position : Nat) (text : Text) :
    readAll (count + position) text = (readAll position text).map (shift count) := by
  induction text using Text.reading_induction generalizing position with
  | nil => simp [readAll_nil, atEnd, shift, Span.shift]
  | blank c rest blank ih =>
      rw [readAll_cons_blank _ blank, readAll_cons_blank _ blank, Nat.add_assoc, ih]
  | lexeme c rest solid ih =>
      rw [readAll_cons _ solid, readAll_cons _ solid, List.map_cons, ← ih, Nat.add_assoc]
      rfl

theorem stream_add (count position : Nat) (text : Text) :
    stream (count + position) text = (stream position text).map (shift count) := by
  rw [stream, readAll_add, List.filter_map]
  rfl

theorem findSome?_error?_map_shift (count : Nat) (items : List Item) :
    (items.map (shift count)).findSome? error? =
      (items.findSome? error?).map (Unexpected.shift count) := by
  rw [List.findSome?_map]
  induction items with
  | nil => rfl
  | cons item items ih =>
      rw [List.findSome?_cons, List.findSome?_cons, Function.comp_apply, error?_shift]
      cases item.error? with
      | none => exact ih
      | some error => rfl

end Item

/-! ## Tokenizing -/

theorem findIdx_isSome_of_none {α β : Type} {f : α → Option β} {values : List α}
    (nothing : ∀ value ∈ values, f value = none) :
    values.findIdx (fun value => (f value).isSome) = values.length :=
  List.findIdx_eq_length.mpr fun value mem => by simp [nothing value mem]

theorem findIdx_isSome_append {α β : Type} {f : α → Option β} {front back : List α} {value : α}
    {found : β} (nothing : ∀ value ∈ front, f value = none) (here : f value = some found) :
    (front ++ value :: back).findIdx (fun value => (f value).isSome) = front.length := by
  rw [List.findIdx_append, findIdx_isSome_of_none nothing, if_neg (Nat.lt_irrefl _),
    List.findIdx_cons, here]
  simp

theorem findSome?_take_findIdx {α β : Type} (f : α → Option β) (values : List α) :
    (values.take (values.findIdx (fun value => (f value).isSome) + 1)).findSome? f =
      values.findSome? f := by
  induction values with
  | nil => rfl
  | cons value values ih =>
      cases found : f value <;> simp [List.findIdx_cons, found, ih]

/-- Tokenizing goes by the stream of a text: by its first error, or by all its tokens. -/
theorem tokenize_eq (text : Text) :
    tokenize text = match (Item.stream 0 text).findSome? Item.error? with
      | some error => .error error
      | none => .ok ((Item.stream 0 text).map Item.token ++ [.finish]) := by
  rw [tokenize, tokenizeItems, Item.readUntil_eq_take, Item.readAll_eq_stream_append]
  cases found : (Item.stream 0 text).findSome? Item.error? with
  | none =>
      have clean := List.findSome?_eq_none_iff.mp found
      have all : (Item.stream 0 text).findIdx (fun item => item.error?.isSome) =
          (Item.stream 0 text).length := findIdx_isSome_of_none clean
      rw [all, List.take_of_length_le (by simp), List.findSome?_append, found]
      simp [Item.atEnd, Item.error?, Token.finish]
  | some error =>
      have within : (Item.stream 0 text).findIdx (fun item => item.error?.isSome) <
          (Item.stream 0 text).length := by
        obtain ⟨item, mem, some_error⟩ := List.exists_of_findSome?_eq_some found
        exact List.findIdx_lt_length_of_exists ⟨item, mem, by simp [some_error]⟩
      rw [List.take_append_of_le_length within, findSome?_take_findIdx, found]

end BooleanLexer
