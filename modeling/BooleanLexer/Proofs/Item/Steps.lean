/-
# BooleanLexer.Proofs.Item.Steps -- reading a text character by character

`first` skips a run of blanks and then takes a lexeme.  Seen from the characters of
the text, a blank moves the text by one byte and any other character takes the lexeme
that it starts; `reading_induction` is the induction that goes with it, and
`readAll_nil`, `readAll_cons_blank` and `readAll_cons` say what is read.

Every other way of reading takes its items from the front of that one list
(`read_eq_take`, `readUntil_eq_take`).
-/
import BooleanLexer.Item.Reading
import BooleanLexer.Proofs.Lexeme.Alphabet
import BooleanLexer.Proofs.Text.Cuts

namespace BooleanLexer

set_option autoImplicit false

open Text (isBlank skipBlanks leadingBlanks byteSize)

/-- Induction on a text as it is read: blanks one by one, and otherwise a lexeme at a
time. -/
@[elab_as_elim]
theorem Text.reading_induction {motive : Text → Prop} (nil : motive [])
    (blank : ∀ c rest, isBlank c = true → motive rest → motive (c :: rest))
    (lexeme : ∀ c rest, isBlank c = false → motive (Lexeme.after c rest) → motive (c :: rest)) :
    ∀ text, motive text
  | [] => nil
  | c :: rest =>
      if h : isBlank c then blank c rest h (reading_induction nil blank lexeme rest)
      else
        lexeme c rest (Bool.eq_false_iff.mpr h)
          (reading_induction nil blank lexeme (Lexeme.after c rest))
termination_by text => text.length
decreasing_by
  · simp
  · exact Nat.lt_succ_of_le (Lexeme.length_after_le c rest)

namespace Item

/-- The end of a text, reached at `position`. -/
def atEnd (position : Nat) : Item := ⟨.finish, ⟨position, position⟩⟩

@[simp] theorem isFinish_atEnd (position : Nat) : (atEnd position).isFinish = true := rfl

/-! ## The first item -/

theorem first_of_nil {position : Nat} {text : Text} (empty : skipBlanks text = []) :
    first position text = atEnd (position + byteSize text) := by
  have whole := Text.leadingBlanks_append_skipBlanks text
  rw [empty, List.append_nil] at whole
  simp only [first, empty, whole, atEnd]

theorem first_of_cons {position : Nat} {text rest : Text} {c : Char}
    (starts : skipBlanks text = c :: rest) :
    first position text = ⟨Token.leading c, ⟨position + byteSize (leadingBlanks text),
      position + byteSize (leadingBlanks text) + byteSize (Lexeme.written c rest)⟩⟩ := by
  simp only [first, starts, Lexeme.token_ofHead, Lexeme.width_ofHead]

theorem afterFirst_of_append {position : Nat} {text rest : Text} (taken : Text)
    (divided : text = taken ++ rest)
    (stop : (first position text).span.stop = position + byteSize taken) :
    afterFirst position text = rest := by
  rw [afterFirst, stop, Nat.add_sub_cancel_left, divided, Text.dropBytes_byteSize_append]

theorem afterFirst_of_nil {position : Nat} {text : Text} (empty : skipBlanks text = []) :
    afterFirst position text = [] :=
  afterFirst_of_append text (List.append_nil text).symm (by simp [first_of_nil empty, atEnd])

theorem afterFirst_of_cons {position : Nat} {text rest : Text} {c : Char}
    (starts : skipBlanks text = c :: rest) :
    afterFirst position text = Lexeme.after c rest := by
  apply afterFirst_of_append (leadingBlanks text ++ Lexeme.written c rest)
  · rw [List.append_assoc, Lexeme.written_append_after, ← starts,
      Text.leadingBlanks_append_skipBlanks]
  · simp [first_of_cons starts, Nat.add_assoc]

/-- The first item ends where the rest of the text begins. -/
theorem exists_append_afterFirst (position : Nat) (text : Text) :
    ∃ taken, text = taken ++ afterFirst position text ∧
      (first position text).span.stop = position + byteSize taken := by
  cases starts : skipBlanks text with
  | nil => exact ⟨text, by simp [afterFirst_of_nil starts], by simp [first_of_nil starts, atEnd]⟩
  | cons c rest =>
      refine ⟨leadingBlanks text ++ Lexeme.written c rest, ?_, ?_⟩
      · rw [afterFirst_of_cons starts, List.append_assoc, Lexeme.written_append_after, ← starts,
          Text.leadingBlanks_append_skipBlanks]
      · simp [first_of_cons starts, Nat.add_assoc]

theorem position_le_start_first (position : Nat) (text : Text) :
    position ≤ (first position text).span.start := by
  cases starts : skipBlanks text with
  | nil => simp [first_of_nil starts, atEnd]
  | cons c rest => simp [first_of_cons starts]

/-! ### By the first character -/

theorem skipBlanks_cons_blank {c : Char} (blank : isBlank c = true) (rest : Text) :
    skipBlanks (c :: rest) = skipBlanks rest := by
  simp [skipBlanks, blank]

theorem leadingBlanks_cons_blank {c : Char} (blank : isBlank c = true) (rest : Text) :
    leadingBlanks (c :: rest) = c :: leadingBlanks rest := by
  simp [leadingBlanks, blank]

theorem first_cons_blank (position : Nat) {c : Char} (blank : isBlank c = true) (rest : Text) :
    first position (c :: rest) = first (position + c.utf8Size) rest := by
  have skipped := skipBlanks_cons_blank blank rest
  cases starts : skipBlanks rest with
  | nil =>
      rw [first_of_nil (skipped.trans starts), first_of_nil starts, Text.byteSize_cons,
        Nat.add_assoc]
  | cons d rest' =>
      rw [first_of_cons (skipped.trans starts), first_of_cons starts,
        leadingBlanks_cons_blank blank, Text.byteSize_cons, ← Nat.add_assoc position]

theorem afterFirst_cons_blank (position : Nat) {c : Char} (blank : isBlank c = true)
    (rest : Text) :
    afterFirst position (c :: rest) = afterFirst (position + c.utf8Size) rest := by
  have skipped := skipBlanks_cons_blank blank rest
  cases starts : skipBlanks rest with
  | nil => rw [afterFirst_of_nil (skipped.trans starts), afterFirst_of_nil starts]
  | cons d rest' => rw [afterFirst_of_cons (skipped.trans starts), afterFirst_of_cons starts]

theorem first_cons (position : Nat) {c : Char} (solid : isBlank c = false) (rest : Text) :
    first position (c :: rest) =
      ⟨Token.leading c, ⟨position, position + byteSize (Lexeme.written c rest)⟩⟩ := by
  have starts : skipBlanks (c :: rest) = c :: rest := by simp [skipBlanks, solid]
  rw [first_of_cons starts]
  simp [leadingBlanks, solid]

theorem afterFirst_cons (position : Nat) {c : Char} (solid : isBlank c = false) (rest : Text) :
    afterFirst position (c :: rest) = Lexeme.after c rest :=
  afterFirst_of_cons (by simp [skipBlanks, solid])

/-! ## All items -/

theorem readAll_eq (position : Nat) (text : Text) :
    readAll position text =
      if (first position text).isFinish then [first position text]
      else first position text ::
        readAll (first position text).span.stop (afterFirst position text) := by
  rw [readAll, readUntil]
  simp only [Bool.or_false]
  rfl

theorem head?_readAll (position : Nat) (text : Text) :
    (readAll position text).head? = some (first position text) := by
  rw [readAll_eq]
  split <;> rfl

theorem readAll_nil (position : Nat) : readAll position [] = [atEnd position] := by
  have empty : skipBlanks [] = [] := rfl
  rw [readAll_eq, first_of_nil empty]
  rfl

theorem readAll_cons_blank (position : Nat) {c : Char} (blank : isBlank c = true)
    (rest : Text) :
    readAll position (c :: rest) = readAll (position + c.utf8Size) rest := by
  rw [readAll_eq, readAll_eq (position + c.utf8Size), first_cons_blank position blank,
    afterFirst_cons_blank position blank]

theorem readAll_cons (position : Nat) {c : Char} (solid : isBlank c = false) (rest : Text) :
    readAll position (c :: rest) =
      ⟨Token.leading c, ⟨position, position + byteSize (Lexeme.written c rest)⟩⟩ ::
        readAll (position + byteSize (Lexeme.written c rest)) (Lexeme.after c rest) := by
  rw [readAll_eq, first_cons position solid, afterFirst_cons position solid]
  simp [isFinish, Lexeme.kind_leading_ne_finish]

/-! ## The stream of a text -/

/-- The items of a text at `position`, without its end. -/
def stream (position : Nat) (text : Text) : List Item :=
  (readAll position text).filter fun item => !item.isFinish

theorem stream_eq (position : Nat) (text : Text) :
    stream position text =
      if (first position text).isFinish then []
      else first position text ::
        stream (first position text).span.stop (afterFirst position text) := by
  rw [stream, readAll_eq]
  split <;> simp_all [stream]

@[simp] theorem stream_nil (position : Nat) : stream position [] = [] := by
  simp [stream, readAll_nil]

theorem stream_cons_blank (position : Nat) {c : Char} (blank : isBlank c = true)
    (rest : Text) : stream position (c :: rest) = stream (position + c.utf8Size) rest := by
  rw [stream, readAll_cons_blank position blank, stream]

theorem stream_cons (position : Nat) {c : Char} (solid : isBlank c = false) (rest : Text) :
    stream position (c :: rest) =
      ⟨Token.leading c, ⟨position, position + byteSize (Lexeme.written c rest)⟩⟩ ::
        stream (position + byteSize (Lexeme.written c rest)) (Lexeme.after c rest) := by
  rw [stream, readAll_cons position solid, List.filter_cons_of_pos, stream]
  simp [isFinish, Lexeme.kind_leading_ne_finish]

theorem stream_singleton (position : Nat) {c : Char} (solid : isBlank c = false) :
    stream position [c] = [⟨Token.leading c, ⟨position, position + c.utf8Size⟩⟩] := by
  simp [stream_cons position solid, Lexeme.written, Lexeme.after]

theorem isFinish_of_mem_stream {position : Nat} {text : Text} {item : Item}
    (mem : item ∈ stream position text) : item.isFinish = false := by
  simpa using (List.mem_filter.mp mem).2

/-- Each item of a stream is the token of the character that it starts at. -/
theorem exists_of_mem_stream {position : Nat} {text : Text} {item : Item}
    (mem : item ∈ stream position text) :
    ∃ before c rest, text = before ++ c :: rest ∧ isBlank c = false ∧
      item = ⟨Token.leading c, ⟨position + byteSize before,
        position + byteSize before + byteSize (Lexeme.written c rest)⟩⟩ := by
  induction text using Text.reading_induction generalizing position with
  | nil => simp at mem
  | blank c rest blank ih =>
      rw [stream_cons_blank position blank] at mem
      obtain ⟨before, d, behind, rfl, solid, rfl⟩ := ih mem
      refine ⟨c :: before, d, behind, rfl, solid, ?_⟩
      rw [Text.byteSize_cons, Nat.add_assoc]
  | lexeme c rest solid ih =>
      rw [stream_cons position solid] at mem
      rcases List.mem_cons.mp mem with rfl | mem
      · exact ⟨[], c, rest, rfl, solid, rfl⟩
      · obtain ⟨before, d, behind, divided, solid', rfl⟩ := ih mem
        refine ⟨Lexeme.written c rest ++ before, d, behind, ?_, solid', ?_⟩
        · rw [List.append_assoc, ← divided, Lexeme.written_append_after]
        · rw [Text.byteSize_append, Nat.add_assoc position]

/-- Reading ends with one item for the end of the text, behind its last byte. -/
theorem readAll_eq_stream_append (position : Nat) (text : Text) :
    readAll position text = stream position text ++ [atEnd (position + byteSize text)] := by
  induction text using Text.reading_induction generalizing position with
  | nil => simp [readAll_nil]
  | blank c rest blank ih =>
      rw [readAll_cons_blank position blank, stream_cons_blank position blank, ih,
        Text.byteSize_cons, Nat.add_assoc]
  | lexeme c rest solid ih =>
      rw [readAll_cons position solid, stream_cons position solid, ih, List.cons_append,
        Nat.add_assoc, ← Text.byteSize_append, Lexeme.written_append_after]

/-! ## Less than all items -/

theorem read_eq_take (count position : Nat) (text : Text) :
    read count position text = (readAll position text).take count := by
  induction count generalizing position text with
  | zero => rfl
  | succ count ih =>
      rw [read, readAll_eq]
      split
      · simp
      · rw [ih, List.take_succ_cons]

/-- Reading up to an item takes the stream up to it, or all of it with the end. -/
theorem readUntil_eq_take (halt : Item → Bool) (position : Nat) (text : Text) :
    readUntil halt position text =
      (readAll position text).take ((stream position text).findIdx halt + 1) := by
  fun_induction readUntil halt position text with
  | case1 position text item stops =>
      rw [readAll_eq, stream_eq]
      split
      · simp [item]
      · simp_all [List.findIdx_cons, item]
  | case2 position text item goes_on ih =>
      have unfinished : (first position text).isFinish = false := by simp_all [item]
      rw [readAll_eq, stream_eq, if_neg (by simp [unfinished]), if_neg (by simp [unfinished])]
      simp_all [List.findIdx_cons, item]

/-- Reading up to an item is reading some number of them. -/
theorem readUntil_eq_read (halt : Item → Bool) (position : Nat) (text : Text) :
    readUntil halt position text =
      read ((stream position text).findIdx halt + 1) position text := by
  rw [readUntil_eq_take, read_eq_take]

end Item

end BooleanLexer
