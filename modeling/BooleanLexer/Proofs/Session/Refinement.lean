/-
# BooleanLexer.Proofs.Session.Refinement -- every session is one on bookmarks

A cursor that a bookmark describes has the items in front of it that the bookmark has
left (`placed_cursor`), so reading any number of items takes them from that list and
leads to the cursor of the advanced bookmark (`read_cursor`).  All questions are
answered by reading, so each is answered as the bookmark answers it (`ask_cursor`), and
with that each step of a session (`step_ofBookmarks`) and each session
(`run_eq_bookmarks`).
-/
import BooleanLexer.Proofs.Cursor.Runs
import BooleanLexer.Proofs.Session.Bookmark

namespace BooleanLexer

set_option autoImplicit false

open Cursor (Query yielded)

/-! ## Going on behind items -/

namespace Item

theorem endOf_cons (position : Nat) (item : Item) (items : List Item) :
    endOf position (item :: items) = endOf item.span.stop items := by
  rw [endOf, endOf, List.getLast?_cons]
  cases items.getLast? <;> rfl

theorem endOf_append (position : Nat) (items later : List Item) :
    endOf position (items ++ later) = endOf (endOf position items) later := by
  induction items generalizing position with
  | nil => rfl
  | cons item items ih => rw [List.cons_append, endOf_cons, endOf_cons, ih]

/-- Behind any number of items of a stream, the rest of the text has the rest of the
stream. -/
theorem exists_append_drop_stream {count position : Nat} {text : Text}
    (within : count ≤ (stream position text).length) :
    ∃ passed rest, text = passed ++ rest ∧
      endOf position ((stream position text).take count) = position + Text.byteSize passed ∧
      stream (position + Text.byteSize passed) rest = (stream position text).drop count := by
  induction count generalizing position text with
  | zero => exact ⟨[], text, rfl, rfl, rfl⟩
  | succ count ih =>
      obtain ⟨taken, divided, stop⟩ := exists_append_afterFirst position text
      rw [stream_eq] at within ⊢
      split at within
      · simp at within
      · next unfinished =>
          rw [if_neg unfinished, List.take_succ_cons, List.drop_succ_cons, endOf_cons]
          obtain ⟨passed, rest, rest_divided, size, remaining⟩ := ih (Nat.le_of_succ_le_succ within)
          refine ⟨taken ++ passed, rest, ?_, ?_, ?_⟩
          · rw [List.append_assoc, ← rest_divided]
            exact divided
          · rw [size, stop, Text.byteSize_append, Nat.add_assoc]
          · rw [← remaining, stop, Text.byteSize_append, Nat.add_assoc]

@[simp] theorem shiftBack_shift (count : Nat) (item : Item) :
    (item.shift count).shiftBack count = item := by
  simp [shiftBack, shift, Span.shift]

end Item

/-! ## The cursor of a bookmark -/

namespace Bookmark

@[simp] theorem source_cursor (mark : Bookmark) : mark.cursor.source = mark.source := rfl

@[simp] theorem position_cursor (mark : Bookmark) : mark.cursor.position = mark.position := rfl

/-- The cursor of a bookmark has in front of it what the bookmark has left. -/
theorem placed_cursor (mark : Bookmark) :
    mark.cursor.Placed ∧ Item.stream mark.position mark.cursor.rest = mark.left ∧
      mark.position + Text.byteSize mark.cursor.rest = Text.byteSize mark.source := by
  by_cases finished : mark.finished = true
  · have position : mark.position = Text.byteSize mark.source := if_pos finished
    have place := Cursor.placed_of_append mark.source (List.append_nil _).symm position.symm
    have rest : mark.cursor.rest = [] := place.2
    refine ⟨place.1, ?_, ?_⟩
    · rw [rest, Item.stream_nil, left_of_finished finished]
    · rw [rest, position, Text.byteSize_nil, Nat.add_zero]
  · obtain ⟨passed, rest, divided, stop, remaining⟩ :=
      Item.exists_append_drop_stream mark.taken_le
    rw [Nat.zero_add] at stop remaining
    have position : mark.position = Text.byteSize passed := (if_neg finished).trans stop
    have place := Cursor.placed_of_append passed divided position.symm
    have behind : mark.cursor.rest = rest := place.2
    refine ⟨place.1, ?_, ?_⟩
    · rw [behind, position]
      exact remaining
    · rw [behind, position, ← Text.byteSize_append, ← divided]

theorem readAll_rest (mark : Bookmark) :
    Item.readAll mark.position mark.cursor.rest = mark.left ++ [mark.finish] := by
  obtain ⟨-, stream, size⟩ := mark.placed_cursor
  rw [Item.readAll_eq_stream_append, stream, size, finish]

theorem position_advance (mark : Bookmark) (count : Nat) :
    (mark.advance count).position =
      Item.endOf mark.position ((mark.left ++ [mark.finish]).take count) := by
  unfold advance
  split
  · next within =>
      rw [List.take_append_of_le_length within]
      by_cases finished : mark.finished = true
      · rw [left_of_finished finished, List.take_nil]
        simp [position, finished, Item.endOf]
      · simp only [position, if_neg finished]
        rw [left, ← Item.endOf_append, ← List.take_add]
        rfl
  · next beyond =>
      rw [List.take_of_length_le (by simp; omega), Item.endOf_append]
      simp [position, exhausted, finish, Item.endOf, Item.atEnd]

theorem source_advance (mark : Bookmark) (count : Nat) :
    (mark.advance count).source = mark.source := by
  unfold advance
  split <;> rfl

theorem behind_eq (cursor : Cursor) (items : List Item) :
    cursor.behind items = ⟨cursor.source, Item.endOf cursor.position items⟩ := by
  unfold Cursor.behind Item.endOf
  cases items.getLast? <;> rfl

/-- Reading takes items from what is left, and the end behind them. -/
theorem read_cursor (mark : Bookmark) (count : Nat) :
    mark.cursor.read count =
      ((mark.left ++ [mark.finish]).take count, (mark.advance count).cursor) := by
  have read : Item.read count mark.position mark.cursor.rest =
      (mark.left ++ [mark.finish]).take count := by
    rw [Item.read_eq_take, readAll_rest]
  have behind : mark.cursor.behind ((mark.left ++ [mark.finish]).take count) =
      (mark.advance count).cursor := by
    rw [behind_eq]
    simp only [cursor, position_advance, source_advance]
  simp only [Cursor.read, position_cursor, read, behind]

theorem readUntil_cursor (mark : Bookmark) (halt : Item → Bool) :
    mark.cursor.readUntil halt = mark.cursor.read (mark.left.findIdx halt + 1) := by
  have same : Item.readUntil halt mark.position mark.cursor.rest =
      Item.read (mark.left.findIdx halt + 1) mark.position mark.cursor.rest := by
    rw [Item.readUntil_eq_read, mark.placed_cursor.2.1]
  simp only [Cursor.readUntil, Cursor.read, position_cursor, same]

theorem readAll_cursor (mark : Bookmark) :
    mark.cursor.readAll = mark.cursor.read (mark.left.length + 1) := by
  have none_halts : mark.left.findIdx (fun _ => false) = mark.left.length :=
    List.findIdx_eq_length.mpr fun _ _ => rfl
  rw [Cursor.readAll, readUntil_cursor, none_halts]

theorem scan_cursor (mark : Bookmark) :
    mark.cursor.scan = (mark.left.head?.getD mark.finish, (mark.advance 1).cursor) := by
  have first : Item.first mark.position mark.cursor.rest = mark.left.head?.getD mark.finish := by
    have heads := congrArg List.head? mark.readAll_rest
    rw [Item.head?_readAll, List.head?_append] at heads
    cases found : mark.left.head? <;> simp_all
  have moved : (mark.advance 1).cursor =
      ⟨mark.source, (Item.first mark.position mark.cursor.rest).span.stop⟩ := by
    rw [cursor, position_advance, source_advance, first]
    cases mark.left <;> rfl
  rw [moved, ← first]
  rfl

/-! ## Questions -/

theorem isFinish_of_mem_left {mark : Bookmark} {item : Item} (mem : item ∈ mark.left) :
    item.isFinish = false :=
  Item.isFinish_of_mem_stream (List.mem_of_mem_drop mem)

/-- The stream yields what is taken, without the end. -/
theorem yielded_take (mark : Bookmark) (count : Nat) :
    yielded ((mark.left ++ [mark.finish]).take count) = mark.left.take count := by
  have kept : ∀ item ∈ mark.left.take count, (!item.isFinish) = true := fun item mem => by
    simp [isFinish_of_mem_left (List.mem_of_mem_take mem)]
  have dropped : ∀ item ∈ [mark.finish].take (count - mark.left.length),
      ¬ (!item.isFinish) = true := fun item mem => by
    rw [List.mem_singleton.mp (List.mem_of_mem_take mem)]
    simp [finish]
  rw [yielded, List.take_append, List.filter_append, List.filter_eq_self.mpr kept,
    List.filter_eq_nil_iff.mpr dropped, List.append_nil]

theorem advance_zero (mark : Bookmark) : mark.advance 0 = mark := by
  rw [advance, dif_pos (Nat.zero_le _)]
  rfl

theorem take_one (mark : Bookmark) :
    (mark.left ++ [mark.finish]).take 1 = [mark.left.head?.getD mark.finish] := by
  cases mark.left <;> rfl

theorem find?_take_findIdx {α : Type} (p : α → Bool) (values : List α) :
    (values.take (values.findIdx p + 1)).find? p = values.find? p := by
  induction values with
  | nil => rfl
  | cons value values ih => cases found : p value <;> simp [List.findIdx_cons, found, ih]

/-- The items that are left are those of the rest of the source, read from where it is. -/
theorem left_eq_map_shift (mark : Bookmark) :
    mark.left = (Item.stream 0 mark.cursor.rest).map (Item.shift mark.position) := by
  rw [← Item.stream_add, Nat.add_zero, mark.placed_cursor.2.1]

/-- Tokenizing the rest of a source goes by the items that are left. -/
theorem tokenize_rest (mark : Bookmark) : tokenize mark.cursor.rest = mark.tokenized := by
  rw [tokenize_eq, tokenized, left_eq_map_shift, Item.findSome?_error?_map_shift]
  cases (Item.stream 0 mark.cursor.rest).findSome? Item.error? with
  | none => simp [Function.comp_def]
  | some error => simp [Unexpected.shift]

theorem tokenizeItems_rest (mark : Bookmark) :
    tokenizeItems mark.cursor.rest = mark.visited .tokenizeRest := by
  have all : mark.left ++ [mark.finish] =
      (Item.readAll 0 mark.cursor.rest).map (Item.shift mark.position) := by
    rw [← Item.readAll_add, Nat.add_zero, readAll_rest]
  have errors : mark.left.findIdx (fun item => item.error?.isSome) =
      (Item.stream 0 mark.cursor.rest).findIdx (fun item => item.error?.isSome) := by
    simp [left_eq_map_shift, List.findIdx_map, Function.comp_def, Item.error?_shift]
  rw [tokenizeItems, Item.readUntil_eq_take, visited, all, errors, ← List.map_take, List.map_map]
  simp [Function.comp_def]

/-- **A question to a cursor is answered by its bookmark.** -/
theorem ask_cursor (mark : Bookmark) (query : Query) :
    mark.cursor.ask query = ⟨mark.answer query, mark.visited query, (mark.moved query).cursor⟩ := by
  cases query with
  | nextToken => simp only [Cursor.ask, scan_cursor, answer, visited, moved, demand, take_one]
  | scan => simp only [Cursor.ask, scan_cursor, answer, visited, moved, demand, take_one]
  | next =>
      have head : (if (mark.left.head?.getD mark.finish).isFinish then none
          else some (mark.left.head?.getD mark.finish)) = mark.left.head? := by
        cases left : mark.left with
        | nil => rfl
        | cons item items =>
            have mem : item ∈ mark.left := left ▸ List.mem_cons_self
            simp [isFinish_of_mem_left mem]
      simp only [Cursor.ask, scan_cursor, answer, visited, moved, demand, take_one, head]
  | position | source | rest =>
      simp only [Cursor.ask, answer, visited, moved, demand, advance_zero]
      rfl
  | nth count =>
      have index : (mark.left.take (count + 1))[count]? = mark.left[count]? :=
        List.getElem?_take_of_lt (Nat.lt_succ_self count)
      simp only [Cursor.ask, Cursor.Reply.ofVisited, read_cursor, yielded_take, answer, visited,
        moved, demand, index]
  | take count =>
      simp only [Cursor.ask, Cursor.Reply.ofVisited, read_cursor, yielded_take, answer, visited,
        moved, demand]
  | find kind =>
      simp only [Cursor.ask, Cursor.Reply.ofVisited, readUntil_cursor, read_cursor, yielded_take,
        answer, visited, moved, demand, find?_take_findIdx]
  | untilTerminal =>
      simp only [Cursor.ask, Cursor.Reply.ofVisited, readUntil_cursor, read_cursor, answer,
        visited, moved, demand]
  | collect | count | last | literals | errors =>
      simp only [Cursor.ask, Cursor.Reply.ofVisited, readAll_cursor, read_cursor, yielded_take,
        answer, visited, moved, demand, List.take_of_length_le (Nat.le_succ _)]
  | tokenizeRest =>
      simp only [Cursor.ask, tokenize_rest, tokenizeItems_rest, answer, moved, demand,
        advance_zero]

end Bookmark

/-! ## Sessions -/

namespace Session

/-- The session whose cursors some bookmarks describe. -/
def ofBookmarks (marks : List Bookmark) : Session := ⟨marks.map Bookmark.cursor⟩

theorem step_ofBookmarks (marks : List Bookmark) (step : Step) :
    (ofBookmarks marks).step step =
      (Bookmarks.step marks step).map fun (reply, marks) => (reply, ofBookmarks marks) := by
  cases step with
  | start source =>
      simp only [Session.step, add, Bookmarks.step, ofBookmarks, Option.map_some, List.length_map,
        List.map_append, List.map_cons, List.map_nil]
      rfl
  | copy slot =>
      simp only [Session.step, Bookmarks.step, ofBookmarks, List.getElem?_map]
      cases marks[slot]? with
      | none => rfl
      | some mark => simp [add]
  | ask slot query =>
      simp only [Session.step, Bookmarks.step, ofBookmarks, List.getElem?_map]
      cases marks[slot]? with
      | none => rfl
      | some mark => simp [Bookmark.ask_cursor, List.map_set]

theorem run_ofBookmarks (marks : List Bookmark) (steps : List Step) :
    (ofBookmarks marks).run steps =
      (Bookmarks.run marks steps).map fun (replies, marks) => (replies, ofBookmarks marks) := by
  induction steps generalizing marks with
  | nil => rfl
  | cons step steps ih =>
      rw [Session.run, Bookmarks.run, step_ofBookmarks]
      cases Bookmarks.step marks step with
      | none => rfl
      | some made =>
          simp only [Option.map_some, Option.bind_eq_bind, Option.bind_some, ih]
          cases Bookmarks.run made.2 steps <;> rfl

/-- **Every session is one on bookmarks.**  It is refused where that is refused, it gives
the same replies, and its cursors stand where the bookmarks are. -/
theorem run_eq_bookmarks (source : Text) (steps : List Step) :
    (Session.new source).run steps =
      (Bookmarks.run [.start source] steps).map fun (replies, marks) =>
        (replies, ofBookmarks marks) :=
  run_ofBookmarks [.start source] steps

end Session

end BooleanLexer
