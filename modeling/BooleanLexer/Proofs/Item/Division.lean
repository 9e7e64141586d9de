/-
# BooleanLexer.Proofs.Item.Division -- the one way to divide a text into tokens

`Division` says when a list of items divides a text into tokens: the spans follow each
other, each holds a spelling of its token, what stands between them is blank, and each
token is the longest that can be spelled at its place.

A text is divided in exactly one way, and that is how it is read
(`division_iff_eq_stream`).  Each condition is needed: without blanks alone in the gaps
a token could be left out, and without the last one `||` would also be two tokens.
-/
import BooleanLexer.Proofs.Item.Grammar
import Mathlib.Data.List.Chain
import Mathlib.Data.List.Pairwise

namespace BooleanLexer

set_option autoImplicit false

open Text (blanks isBlank byteSize Written)

/-- Whether items divide a text that stands at `position` into tokens. -/
structure Division (position : Nat) (text : Text) (items : List Item) : Prop where
  /-- The end of the text is no token. -/
  unfinished : ∀ item ∈ items, item.token.kind ≠ .finish
  /-- No span is empty. -/
  nonempty : ∀ item ∈ items, item.span.start < item.span.stop
  /-- Each span starts at or behind the end of the one before. -/
  ordered : items.IsChain fun earlier later => earlier.span.stop ≤ later.span.start
  /-- Each span lies between characters and holds a spelling of its token. -/
  spelled : ∀ item ∈ items, ∃ part,
    Written position text item.span.start item.span.stop part ∧ item.token.Spelled part
  /-- A character outside all spans is blank. -/
  gaps : ∀ first c second, text = first ++ c :: second →
    (∀ item ∈ items, ¬ (item.span.start ≤ position + byteSize first ∧
      position + byteSize first < item.span.stop)) → c ∈ blanks
  /-- No longer token can be spelled where one starts. -/
  longest : ∀ item ∈ items, ∀ (token : Token) (stop : Nat) (part : Text),
    Written position text item.span.start stop part → token.Spelled part → stop ≤ item.span.stop

namespace Division

variable {position : Nat} {items : List Item}

theorem part_ne_nil {token : Token} {part : Text} (spelled : token.Spelled part) :
    part ≠ [] := by
  obtain ⟨c, -, -, rfl | ⟨rfl, -⟩⟩ := spelled.inversion <;> simp

theorem position_le {text : Text} (division : Division position text items) {item : Item}
    (mem : item ∈ items) : position ≤ item.span.start := by
  obtain ⟨part, written, -⟩ := division.spelled item mem
  exact written.position_le

/-! ## A text without characters -/

theorem nil_iff : Division position [] items ↔ items = [] := by
  constructor
  · intro division
    cases items with
    | nil => rfl
    | cons item items =>
        obtain ⟨part, ⟨first, second, divided, -⟩, spelled⟩ := division.spelled item (by simp)
        have : part = [] := by simp_all
        exact absurd this (part_ne_nil spelled)
  · rintro rfl
    constructor <;> simp

/-! ## A text that starts with a blank -/

/-- No token starts with a blank, so all of them stand behind it. -/
theorem behind_blank {c : Char} (blank : isBlank c = true) {rest : Text}
    (division : Division position (c :: rest) items) :
    ∀ item ∈ items, position + byteSize [c] ≤ item.span.start := by
  intro item mem
  obtain ⟨part, ⟨first, second, divided, start, -⟩, spelled⟩ := division.spelled item mem
  cases first with
  | nil =>
      have := (spelled.eq_written divided).1
      simp [blank] at this
  | cons d first =>
      obtain ⟨rfl, -⟩ := List.cons.inj divided
      rw [start, Text.byteSize_cons]
      simp only [Text.byteSize_cons, Text.byteSize_nil]
      omega

theorem cons_blank_iff {c : Char} (blank : isBlank c = true) (rest : Text) :
    Division position (c :: rest) items ↔ Division (position + byteSize [c]) rest items := by
  have divided : [c] ++ rest = c :: rest := rfl
  constructor
  · intro division
    have behind := division.behind_blank blank
    refine ⟨division.unfinished, division.nonempty, division.ordered, ?_, ?_, ?_⟩
    · intro item mem
      simp only [← Written.append_iff (behind item mem)]
      exact division.spelled item mem
    · intro first d second rest_divided outside
      refine division.gaps (c :: first) d second (by rw [rest_divided]; rfl) ?_
      rwa [← List.singleton_append, Text.byteSize_append, ← Nat.add_assoc]
    · intro item mem token stop part
      rw [← Written.append_iff (behind item mem)]
      exact division.longest item mem token stop part
  · intro division
    refine ⟨division.unfinished, division.nonempty, division.ordered, ?_, ?_, ?_⟩
    · intro item mem
      simp only [← divided, Written.append_iff (division.position_le mem)]
      exact division.spelled item mem
    · intro first d second whole outside
      cases first with
      | nil =>
          obtain ⟨rfl, -⟩ := List.cons.inj whole
          simpa [isBlank] using blank
      | cons e first =>
          obtain ⟨rfl, rest_divided⟩ := List.cons.inj whole
          refine division.gaps first d second rest_divided ?_
          rwa [← List.singleton_append, Text.byteSize_append, ← Nat.add_assoc] at outside
    · intro item mem token stop part
      rw [← divided, Written.append_iff (division.position_le mem)]
      exact division.longest item mem token stop part

/-! ## A text that starts with a lexeme -/

/-- The first item of a chain of spans ends before every later one. -/
theorem stop_le_start_of_mem {item later : Item}
    (nonempty : ∀ item ∈ items, item.span.start < item.span.stop)
    (ordered : (item :: items).IsChain fun earlier later => earlier.span.stop ≤ later.span.start)
    (mem : later ∈ items) : item.span.stop ≤ later.span.start := by
  induction items generalizing item with
  | nil => simp at mem
  | cons next items ih =>
      obtain ⟨here, ordered⟩ := List.isChain_cons_cons.mp ordered
      rcases List.mem_cons.mp mem with rfl | mem
      · exact here
      · have := ih (fun item mem => nonempty item (by simp [mem])) ordered mem
        have := nonempty next (by simp)
        omega

/-- The first token of a text that starts with no blank is the one that is read. -/
theorem exists_cons {c : Char} (solid : isBlank c = false) {rest : Text}
    (division : Division position (c :: rest) items) :
    ∃ tail, items = ⟨.leading c, ⟨position,
      position + byteSize (Lexeme.written c rest)⟩⟩ :: tail := by
  -- Some token covers the first character, as that is no gap.
  have covered : ∃ item ∈ items, item.span.start ≤ position ∧ position < item.span.stop := by
    by_contra uncovered
    push Not at uncovered
    refine isBlank_eq_false_iff.mp solid (division.gaps [] c rest rfl fun item mem => ?_)
    have := uncovered item mem
    simp only [Text.byteSize_nil]
    omega
  cases items with
  | nil => simp at covered
  | cons item tail =>
      -- It is the first one: those behind start later.
      have start : item.span.start = position := by
        obtain ⟨cover, mem, le, lt⟩ := covered
        have := division.position_le List.mem_cons_self
        have := division.nonempty item (by simp)
        rcases List.mem_cons.mp mem with rfl | mem
        · omega
        · have := stop_le_start_of_mem (fun item mem => division.nonempty item (by simp [mem]))
            division.ordered mem
          omega
      obtain ⟨part, written, spelled⟩ := division.spelled item (by simp)
      rw [start] at written
      obtain ⟨second, divided, stop⟩ := written.head
      obtain ⟨-, token, -, equal⟩ := spelled.eq_written divided
      have longest := division.longest item (by simp) (.leading c)
        (position + byteSize (Lexeme.written c rest)) (Lexeme.written c rest)
        ⟨[], Lexeme.after c rest, by simp [Lexeme.written_append_after], by simp [start],
          by simp [start]⟩
        (.written solid rest)
      have part : part = Lexeme.written c rest := equal (by omega)
      refine ⟨tail, ?_⟩
      rw [← token, ← part, ← stop, ← start]

theorem of_cons {c : Char} {rest : Text}
    (division : Division position (c :: rest) (⟨.leading c, ⟨position,
      position + byteSize (Lexeme.written c rest)⟩⟩ :: items)) :
    Division (position + byteSize (Lexeme.written c rest)) (Lexeme.after c rest) items := by
  have divided := Lexeme.written_append_after c rest
  have nonempty : ∀ item ∈ items, item.span.start < item.span.stop :=
    fun item mem => division.nonempty item (by simp [mem])
  have behind : ∀ item ∈ items,
      position + byteSize (Lexeme.written c rest) ≤ item.span.start :=
    fun item mem => stop_le_start_of_mem nonempty division.ordered mem
  refine ⟨fun item mem => division.unfinished item (by simp [mem]), nonempty,
    division.ordered.tail, ?_, ?_, ?_⟩
  · intro item mem
    simp only [← Written.append_iff (behind item mem), divided]
    exact division.spelled item (by simp [mem])
  · intro first d second rest_divided outside
    refine division.gaps (Lexeme.written c rest ++ first) d second ?_ fun item mem => ?_
    · rw [List.append_assoc, ← rest_divided, divided]
    · rw [Text.byteSize_append, ← Nat.add_assoc]
      rcases List.mem_cons.mp mem with rfl | mem
      · simp only
        omega
      · exact outside item mem
  · intro item mem token stop part
    rw [← Written.append_iff (behind item mem), divided]
    exact division.longest item (by simp [mem]) token stop part

theorem cons {c : Char} (solid : isBlank c = false) {rest : Text}
    (division : Division (position + byteSize (Lexeme.written c rest)) (Lexeme.after c rest)
      items) :
    Division position (c :: rest) (⟨.leading c, ⟨position,
      position + byteSize (Lexeme.written c rest)⟩⟩ :: items) := by
  have divided := Lexeme.written_append_after c rest
  have size := Text.byteSize_pos (Lexeme.written_ne_nil c rest)
  refine ⟨?_, ?_, ?_, ?_, ?_, ?_⟩
  · simpa [Lexeme.kind_leading_ne_finish] using division.unfinished
  · simpa [size] using division.nonempty
  · cases items with
    | nil => exact .singleton _
    | cons item items => exact .cons_cons (division.position_le (by simp)) division.ordered
  · intro item mem
    rcases List.mem_cons.mp mem with rfl | mem
    · exact ⟨Lexeme.written c rest, ⟨[], Lexeme.after c rest, by simp [divided], rfl, rfl⟩,
        .written solid rest⟩
    · simp only [← divided, Written.append_iff (division.position_le mem)]
      exact division.spelled item mem
  · intro first d second whole outside
    have passed : byteSize (Lexeme.written c rest) ≤ byteSize first := by
      have := outside _ List.mem_cons_self
      simp only at this
      omega
    rw [← divided] at whole
    obtain ⟨middle, rfl, rest_divided⟩ := Text.exists_of_append_eq_append whole passed
    refine division.gaps middle d second rest_divided fun item mem => ?_
    rw [Nat.add_assoc, ← Text.byteSize_append]
    exact outside item (by simp [mem])
  · intro item mem token stop part written spelled
    rcases List.mem_cons.mp mem with rfl | mem
    · obtain ⟨second, starts, rfl⟩ := written.head
      exact Nat.add_le_add_left (spelled.eq_written starts).2.2.1 position
    · rw [← divided, Written.append_iff (division.position_le mem)] at written
      exact division.longest item mem token stop part written spelled

end Division

/-- **A text is divided in one way, and that is how it is read.** -/
theorem division_iff_eq_stream {position : Nat} {text : Text} {items : List Item} :
    Division position text items ↔ items = Item.stream position text := by
  induction text using Text.reading_induction generalizing position items with
  | nil => rw [Item.stream_nil, Division.nil_iff]
  | blank c rest blank ih =>
      rw [Item.stream_cons_blank position blank, Division.cons_blank_iff blank, ih]
      rfl
  | lexeme c rest solid ih =>
      rw [Item.stream_cons position solid]
      constructor
      · intro division
        obtain ⟨tail, rfl⟩ := division.exists_cons solid
        rw [ih.mp division.of_cons]
      · rintro rfl
        exact .cons solid (ih.mpr rfl)

/-- Every item of a text stops before the later ones start. -/
theorem Item.pairwise_stream (position : Nat) (text : Text) :
    (stream position text).Pairwise fun earlier later => earlier.span.stop ≤ later.span.start := by
  induction text using Text.reading_induction generalizing position with
  | nil => rw [stream_nil]; exact .nil
  | blank c rest blank ih => rw [stream_cons_blank position blank]; exact ih _
  | lexeme c rest solid ih =>
      rw [stream_cons position solid]
      exact .cons (fun later mem => (division_iff_eq_stream.mpr rfl).position_le mem) (ih _)

/-- Two items of a text are the same one, or one of them stops before the other starts. -/
theorem Item.eq_or_apart_of_mem_stream {position : Nat} {text : Text} {item item' : Item}
    (mem : item ∈ stream position text) (mem' : item' ∈ stream position text) :
    item = item' ∨ item.span.stop ≤ item'.span.start ∨ item'.span.stop ≤ item.span.start := by
  have symmetric : Std.Symm fun item item' : Item =>
      item = item' ∨ item.span.stop ≤ item'.span.start ∨ item'.span.stop ≤ item.span.start :=
    ⟨fun _ _ apart => apart.imp Eq.symm Or.symm⟩
  have ordered : (stream position text).Pairwise fun item item' : Item =>
      item = item' ∨ item.span.stop ≤ item'.span.start ∨ item'.span.stop ≤ item.span.start :=
    (pairwise_stream position text).imp fun stops => .inr (.inl stops)
  exact List.Pairwise.forall_of_forall (fun _ _ => .inl rfl) ordered mem mem'

/-- Whether items list a whole source: the tokens that divide it, and then its end. -/
def Lexical (source : Text) (items : List Item) : Prop :=
  ∃ tokens, items = tokens ++ [Item.atEnd (byteSize source)] ∧ Division 0 source tokens

theorem lexical_iff_eq_readAll {source : Text} {items : List Item} :
    Lexical source items ↔ items = Item.readAll 0 source := by
  rw [Item.readAll_eq_stream_append, Nat.zero_add]
  constructor
  · rintro ⟨tokens, rfl, division⟩
    rw [division_iff_eq_stream.mp division]
  · rintro rfl
    exact ⟨_, rfl, division_iff_eq_stream.mpr rfl⟩

end BooleanLexer
