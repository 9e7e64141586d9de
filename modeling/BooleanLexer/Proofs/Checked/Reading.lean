/-
# BooleanLexer.Proofs.Checked.Reading -- reading that stops at nothing

`scan` reads one item as a machine does: it cuts off what remains of the source, finds the start
of the item by taking sizes from each other, and adds the width of the lexeme to it.  `read` does
that again and again.  From a cursor between two characters none of it traps, and it leads where
the cursor is led without any check (`scan_eq_ok`, `read_eq_ok`), again between two characters.

All questions move a cursor by reading (`exists_read_of_ask`), and so do the loops that list or
tokenize a source (`exists_read_of_readUntil`).
-/
import BooleanLexer.Proofs.Checked.Words
import BooleanLexer.Proofs.Cursor.Restart

namespace BooleanLexer

set_option autoImplicit false

open Text (byteSize skipBlanks leadingBlanks)

/-! ## Reading in general -/

namespace Cursor

theorem exists_readUntil_eq_read (cursor : Cursor) (halt : Item → Bool) :
    ∃ count, cursor.readUntil halt = cursor.read count := by
  refine ⟨(Item.stream cursor.position cursor.rest).findIdx halt + 1, ?_⟩
  simp only [readUntil, read, Item.readUntil_eq_read]

theorem read_one (cursor : Cursor) : cursor.read 1 = ([cursor.scan.1], cursor.scan.2) := by
  have single : Item.read 1 cursor.position cursor.rest = [cursor.scan.1] := by
    rw [Item.read]
    split <;> rfl
  rw [read, single]
  rfl

theorem read_succ {cursor : Cursor} (placed : cursor.Placed) (count : Nat) :
    cursor.read (count + 1) =
      if cursor.scan.1.isFinish then ([cursor.scan.1], cursor.scan.2)
      else (cursor.scan.1 :: (cursor.scan.2.read count).1, (cursor.scan.2.read count).2) := by
  have items : Item.read (count + 1) cursor.position cursor.rest =
      if cursor.scan.1.isFinish then [cursor.scan.1]
      else cursor.scan.1 :: (cursor.scan.2.read count).1 := by
    rw [Item.read, read, placed.scan.2]
    rfl
  rw [read, items]
  split
  · rfl
  · simp only [Bookmark.behind_eq, Item.endOf_cons]
    rw [read, Bookmark.behind_eq]
    rfl

/-- Every question moves a cursor as reading some number of items does. -/
theorem exists_read_of_ask (cursor : Cursor) (query : Query) :
    ∃ count, (cursor.ask query).cursor = (cursor.read count).2 := by
  cases query with
  | position | rest | source | tokenizeRest => exact ⟨0, rfl⟩
  | nextToken | scan | next => exact ⟨1, by rw [read_one]; rfl⟩
  | nth count => exact ⟨count + 1, rfl⟩
  | take count => exact ⟨count, rfl⟩
  | find | untilTerminal | collect | count | last | literals | errors =>
      obtain ⟨count, reads⟩ := cursor.exists_readUntil_eq_read _
      exact ⟨count, congrArg Prod.snd reads⟩

end Cursor

namespace Checked

variable {greatest : Nat} {cursor : Cursor}

/-! ## Cuts -/

theorem cut_append (first part second : Text) :
    cut (first ++ part ++ second) (byteSize first) (byteSize first + byteSize part) =
      .ok part := by
  have behind := Text.slice?_byteSize_add_append first (part ++ second) 0 (byteSize part)
  rw [Nat.add_zero, Text.slice?_zero_byteSize_append] at behind
  rw [cut_eq_ok_iff, List.append_assoc]
  exact behind

/-- Whether the place of a cursor divides its source: both parts can be cut off, and together
they are the source. -/
def Divides (cursor : Cursor) : Prop :=
  cursor.position ≤ byteSize cursor.source ∧
    ∃ passed, cut cursor.source 0 cursor.position = .ok passed ∧
      cut cursor.source cursor.position (byteSize cursor.source) = .ok cursor.rest ∧
      cursor.source = passed ++ cursor.rest

theorem divides_of_placed (placed : cursor.Placed) : Divides cursor := by
  obtain ⟨passed, divided, size⟩ := Text.dropBytes?_eq_some_iff.mp placed
  have sizes := placed.byteSize_source
  refine ⟨by omega, passed, ?_, ?_, divided⟩
  · have front := cut_append [] passed cursor.rest
    rw [List.nil_append, ← divided, Text.byteSize_nil, Nat.zero_add, size] at front
    exact front
  · have back := cut_append passed cursor.rest []
    rw [List.append_nil, ← divided, size, ← sizes] at back
    exact back

/-! ## Reading -/

/-- Reads one item. -/
def scan (greatest : Nat) (cursor : Cursor) : Except Trap (Item × Cursor) := do
  let rest ← cut cursor.source cursor.position (byteSize cursor.source)
  let start ← sub (byteSize cursor.source) (byteSize (skipBlanks rest))
  match skipBlanks rest with
  | [] => return (⟨.finish, ⟨start, start⟩⟩, { cursor with position := start })
  | c :: behind =>
      let lexeme ← ofHead c behind.head?
      let stop ← add greatest start lexeme.width
      return (⟨lexeme.token, ⟨start, stop⟩⟩, { cursor with position := stop })

/-- Reads `count` items, or fewer if the end of the source comes before. -/
def read (greatest : Nat) : Nat → Cursor → Except Trap (List Item × Cursor)
  | 0, cursor => return ([], cursor)
  | count + 1, cursor => do
      let (item, moved) ← scan greatest cursor
      if item.isFinish then return ([item], moved)
      let (items, last) ← read greatest count moved
      return (item :: items, last)

theorem scan_eq_ok (placed : cursor.Placed) (fits : byteSize cursor.source ≤ greatest) :
    scan greatest cursor = .ok cursor.scan := by
  obtain ⟨_, -, rest, -⟩ := (divides_of_placed placed).2
  have sizes : byteSize cursor.source = cursor.position +
      byteSize (leadingBlanks cursor.rest) + byteSize (skipBlanks cursor.rest) := by
    rw [Nat.add_assoc, ← Text.byteSize_append, Text.leadingBlanks_append_skipBlanks,
      placed.byteSize_source]
  have start : sub (byteSize cursor.source) (byteSize (skipBlanks cursor.rest)) =
      .ok (cursor.position + byteSize (leadingBlanks cursor.rest)) := by
    rw [sizes, sub_eq_ok (Nat.le_add_left _ _), Nat.add_sub_cancel]
  refine bind_eq_ok_iff.mpr ⟨_, rest, bind_eq_ok_iff.mpr ⟨_, start, ?_⟩⟩
  unfold Cursor.scan Item.first
  cases starts : skipBlanks cursor.rest with
  | nil => rfl
  | cons c behind =>
      -- What the lexeme is written with comes before the rest of the source ends.
      have divided := congrArg byteSize (Lexeme.written_append_after c behind)
      have room : cursor.position + byteSize (leadingBlanks cursor.rest) +
          (Lexeme.ofHead c behind.head?).width ≤ greatest := by
        rw [starts, ← divided, Text.byteSize_append] at sizes
        rw [Lexeme.width_ofHead]
        omega
      exact bind_eq_ok_iff.mpr ⟨_, ofHead_eq_ok c behind.head?,
        bind_eq_ok_iff.mpr ⟨_, add_eq_ok room, rfl⟩⟩

/-- Reading any number of items never traps, and leads to a place between two characters. -/
theorem read_eq_ok (placed : cursor.Placed) (fits : byteSize cursor.source ≤ greatest)
    (count : Nat) :
    read greatest count cursor = .ok (cursor.read count) ∧ (cursor.read count).2.Placed := by
  induction count generalizing cursor with
  | zero => exact ⟨rfl, placed⟩
  | succ count ih =>
      obtain ⟨later, placed'⟩ := ih placed.scan.1 fits
      rw [Cursor.read_succ placed]
      constructor
      · refine bind_eq_ok_iff.mpr ⟨_, scan_eq_ok placed fits, ?_⟩
        by_cases finished : cursor.scan.1.isFinish = true
        · rw [if_pos finished]
          exact if_pos finished
        · rw [if_neg finished]
          exact (if_neg finished).trans (bind_eq_ok_iff.mpr ⟨_, later, rfl⟩)
      · split
        · exact placed.scan.1
        · exact placed'

/-- Inside a character there is nothing to read. -/
example : scan 4 ⟨['é', '|', '|'], 1⟩ = .error .misplacedCut := by decide

/-- A loop over the items of a source reads from its start. -/
theorem exists_read_of_readUntil (halt : Item → Bool) {source : Text}
    (fits : byteSize source ≤ greatest) :
    ∃ count last, read greatest count (.new source) = .ok (Item.readUntil halt 0 source, last) := by
  obtain ⟨count, reads⟩ := (Cursor.new source).exists_readUntil_eq_read halt
  have items : ((Cursor.new source).readUntil halt).1 = Item.readUntil halt 0 source :=
    congrArg (Item.readUntil halt 0) (Cursor.rest_new source)
  refine ⟨count, ((Cursor.new source).readUntil halt).2, ?_⟩
  rw [(read_eq_ok (Cursor.placed_new source) fits count).1, ← reads, ← items]

end Checked

end BooleanLexer
