/-
# BooleanLexer.Proofs.Report.Columns -- a report in text format can be read back

A line has columns, and each ends where the next begins: the offset at a space, the token at
a space or at the end of the line, as no token shows a space of its own, and the quoted text
at its quotation mark.  So a line tells where its item stands and what it is written with
(`place_eq_of_lineBody_eq`), and no line holds a line feed (`feed_not_mem_lineBody`).

Hence a report consists of one line for each item, and two sources have the same report
exactly if they differ in the choice of their blanks (`text_report_eq_iff`).
-/
import BooleanLexer.Proofs.Report.Entries
import BooleanLexer.Proofs.Text.Quoted
import BooleanLexer.Scan.Listing

namespace BooleanLexer

set_option autoImplicit false

open Text (isBlank byteSize HasLines append_inj_of_stop)

/-! ## The column of the token -/

theorem ne_of_mem_plain {part : Text} (plain : ' ' ∉ part ∧ '\n' ∉ part) {d : Char}
    (mem : d ∈ part) : d ≠ ' ' ∧ d ≠ '\n' :=
  ⟨ne_of_mem_of_not_mem mem plain.1, ne_of_mem_of_not_mem mem plain.2⟩

theorem Kind.ne_of_mem_spelling (kind : Kind) :
    ∀ d ∈ kind.spelling, d ≠ ' ' ∧ d ≠ '\n' := by
  have plain : ' ' ∉ kind.spelling ∧ '\n' ∉ kind.spelling := by cases kind <;> decide
  exact fun d mem => ne_of_mem_plain plain mem

theorem ne_of_not_isBlank {c : Char} (solid : isBlank c = false) : c ≠ ' ' ∧ c ≠ '\n' := by
  constructor <;> (rintro rfl; exact absurd solid (by decide))

theorem ne_of_isDigit {c : Char} (digit : c.isDigit = true) : c ≠ ' ' ∧ c ≠ '\n' := by
  constructor <;> (rintro rfl; exact absurd digit (by decide))

/-- A token that is read shows no space and no line feed. -/
theorem Token.ne_of_mem_display_leading {c : Char} (solid : isBlank c = false) :
    ∀ d ∈ (leading c).display, d ≠ ' ' ∧ d ≠ '\n' := by
  have other := ne_of_not_isBlank solid
  have symbol := Lexeme.symbol_leading c
  intro d mem
  unfold display at mem
  split at mem
  · next letter _ letter_symbol =>
      have same : letter = c := by simpa [symbol] using letter_symbol.symm
      simp only [List.mem_append, List.mem_singleton] at mem
      rcases mem with (((mem | rfl) | mem) | mem) | mem
      · exact ne_of_mem_plain (by decide) mem
      · exact same ▸ other
      · exact ne_of_mem_plain (by decide) mem
      · exact ne_of_isDigit (Text.isDigit_of_mem_decimal mem)
      · exact ne_of_mem_plain (by decide) mem
  · next character _ character_symbol =>
      have same : character = c := by simpa [symbol] using character_symbol.symm
      simp only [List.mem_append] at mem
      rcases mem with (mem | mem) | mem
      · exact ne_of_mem_plain (by decide) mem
      · rw [same] at mem
        exact ⟨ne_of_mem_of_not_mem mem (Text.space_not_mem_quotedChar other.1),
          ne_of_mem_of_not_mem mem (Text.feed_not_mem_quotedChar c)⟩
      · exact ne_of_mem_plain (by decide) mem
  · exact Kind.ne_of_mem_spelling _ d mem

namespace Report

theorem feed_not_mem_literalColumn (literal : Literal) : '\n' ∉ literalColumn literal := by
  have all : ∀ (var : Fin letterCount) (negated : Bool),
      '\n' ∉ literalColumn ⟨var, negated⟩ := by decide
  exact all literal.var literal.negated

/-- The columns of a line behind that of the token. -/
def behindToken (item : Item) (spanned : Text) : Text :=
  (if item.span.size = 0 then [] else "  ".toList ++ Text.quoted spanned) ++
    (item.token.literal?.elim [] fun literal => "  ".toList ++ literalColumn literal)

/-- A line without the line feed that ends it. -/
def lineBody (item : Item) (spanned : Text) : Text :=
  List.replicate (4 - (Text.decimal item.span.start).length) ' ' ++
    (Text.decimal item.span.start ++
      ("  ".toList ++ (item.token.display ++ behindToken item spanned)))

theorem line_eq (item : Item) (spanned : Text) :
    line item spanned = lineBody item spanned ++ ['\n'] := by
  simp only [line, List.leftpad, lineBody, behindToken, List.append_assoc]

/-! ## No line feed within a line -/

theorem ne_of_mem_display {position : Nat} {text : Text} {entry : Item × Text}
    (mem : entry ∈ entries position text) :
    ∀ d ∈ entry.1.token.display, d ≠ ' ' ∧ d ≠ '\n' := by
  rcases exists_of_mem_entries mem with ⟨stop, rfl⟩ | ⟨start, c, rest, solid, rfl⟩
  · exact Kind.ne_of_mem_spelling .finish
  · exact Token.ne_of_mem_display_leading solid

theorem feed_not_mem_behindToken (item : Item) (spanned : Text) :
    '\n' ∉ behindToken item spanned := by
  have spaces : '\n' ∉ "  ".toList := by decide
  simp only [behindToken, List.mem_append, not_or]
  constructor
  · split
    · exact List.not_mem_nil
    · simp only [List.mem_append, not_or]
      exact ⟨spaces, Text.feed_not_mem_quoted spanned⟩
  · cases item.token.literal? with
    | none => exact List.not_mem_nil
    | some literal =>
        simp only [Option.elim_some, List.mem_append, not_or]
        exact ⟨spaces, feed_not_mem_literalColumn literal⟩

theorem feed_not_mem_lineBody {position : Nat} {text : Text} {entry : Item × Text}
    (mem : entry ∈ entries position text) : '\n' ∉ lineBody entry.1 entry.2 := by
  simp only [lineBody, List.mem_append, not_or]
  refine ⟨?_, ?_, by decide, ?_, feed_not_mem_behindToken entry.1 entry.2⟩
  · intro padding
    exact absurd (List.eq_of_mem_replicate padding) (by decide)
  · intro digit
    exact (ne_of_isDigit (Text.isDigit_of_mem_decimal digit)).2 rfl
  · intro shown
    exact (ne_of_mem_display mem _ shown).2 rfl

/-! ## Reading a line -/

/-- The offset ends at a space, and it ends the padding. -/
theorem padded_append_inj {count count' n n' : Nat} {rest rest' : Text}
    (same : List.replicate count ' ' ++ (Text.decimal n ++ ("  ".toList ++ rest)) =
      List.replicate count' ' ' ++ (Text.decimal n' ++ ("  ".toList ++ rest'))) :
    n = n' ∧ rest = rest' := by
  have padding (count : Nat) : ∀ c ∈ List.replicate count ' ', decide (c = ' ') = true :=
    fun c mem => decide_eq_true (List.eq_of_mem_replicate mem)
  have digits (n : Nat) (rest : Text) :
      ∀ c ∈ (Text.decimal n ++ rest).head?, decide (c = ' ') = false := by
    intro c head
    obtain ⟨d, later, starts⟩ := List.exists_cons_of_ne_nil (Text.decimal_ne_nil n)
    have digit : d.isDigit = true := Text.isDigit_of_mem_decimal (starts ▸ List.mem_cons_self)
    rw [starts, List.cons_append, List.head?_cons, Option.mem_some_iff] at head
    exact decide_eq_false (head ▸ (ne_of_isDigit digit).1)
  obtain ⟨-, same_offsets⟩ := append_inj_of_stop (fun c => decide (c = ' ')) same
    (padding count) (digits n _) (padding count') (digits n' _)
  obtain ⟨offsets, same_rest⟩ := append_inj_of_stop Char.isDigit same_offsets
    (fun c mem => Text.isDigit_of_mem_decimal mem) (by simp)
    (fun c mem => Text.isDigit_of_mem_decimal mem) (by simp)
  exact ⟨Text.decimal_injective offsets, List.append_cancel_left same_rest⟩

/-- Behind the token a line ends or shows what the token is written with. -/
theorem behindToken_cases {position : Nat} {text : Text} {entry : Item × Text}
    (mem : entry ∈ entries position text) :
    (entry.2 = [] ∧ behindToken entry.1 entry.2 = []) ∨
      ∃ rest, behindToken entry.1 entry.2 = "  ".toList ++ (Text.quoted entry.2 ++ rest) := by
  rcases exists_of_mem_entries mem with ⟨stop, rfl⟩ | ⟨start, c, rest, -, rfl⟩
  · left
    simp [behindToken, Item.atEnd, Span.size, Token.literal?, Token.finish]
  · right
    have size := Text.byteSize_pos (Lexeme.written_ne_nil c rest)
    refine ⟨(Token.leading c).literal?.elim [] fun literal => "  ".toList ++ literalColumn literal,
      ?_⟩
    rw [behindToken, if_neg (by simp only [Span.size]; omega), List.append_assoc]

/-- A line tells where its item stands and what it is written with. -/
theorem place_eq_of_lineBody_eq {position position' : Nat} {text text' : Text}
    {entry entry' : Item × Text} (mem : entry ∈ entries position text)
    (mem' : entry' ∈ entries position' text')
    (same : lineBody entry.1 entry.2 = lineBody entry'.1 entry'.2) :
    place entry = place entry' := by
  obtain ⟨starts, same_token⟩ := padded_append_inj same
  have shown {position : Nat} {text : Text} {entry : Item × Text}
      (mem : entry ∈ entries position text) :
      ∀ c ∈ entry.1.token.display, decide (c ≠ ' ') = true :=
    fun c shown => decide_eq_true (ne_of_mem_display mem c shown).1
  have ends {position : Nat} {text : Text} {entry : Item × Text}
      (mem : entry ∈ entries position text) :
      ∀ c ∈ (behindToken entry.1 entry.2).head?, decide (c ≠ ' ') = false := by
    rcases behindToken_cases mem with ⟨-, nothing⟩ | ⟨rest, quoted⟩
    · simp [nothing]
    · simp [quoted]
  obtain ⟨-, same_behind⟩ := append_inj_of_stop (fun c => decide (c ≠ ' ')) same_token
    (shown mem) (ends mem) (shown mem') (ends mem')
  have parts : entry.2 = entry'.2 := by
    rcases behindToken_cases mem with ⟨empty, nothing⟩ | ⟨rest, quoted⟩ <;>
      rcases behindToken_cases mem' with ⟨empty', nothing'⟩ | ⟨rest', quoted'⟩
    · rw [empty, empty']
    · simp [nothing, quoted'] at same_behind
    · simp [quoted, nothing'] at same_behind
    · rw [quoted, quoted'] at same_behind
      exact (Text.quoted_append_inj (List.append_cancel_left same_behind)).1
  exact Prod.ext starts parts

theorem map_place_eq_of_map_lineBody_eq {position position' : Nat} {text text' : Text}
    (same : (entries position text).map (fun entry => lineBody entry.1 entry.2) =
      (entries position' text').map fun entry => lineBody entry.1 entry.2) :
    (entries position text).map place = (entries position' text').map place :=
  Text.map_eq_map_of_mem (fun _ mem _ mem' => place_eq_of_lineBody_eq mem mem') same

/-! ## The whole report -/

open Scan (Listing)

theorem lines_eq_map (source : Text) :
    lines 0 source (Listing.ofText source).items =
      ((entries 0 source).map fun entry => lineBody entry.1 entry.2).map (· ++ ['\n']) := by
  have read : (Listing.ofText source).items = Item.readAll 0 source := rfl
  rw [read, lines_readAll, List.map_map]
  exact List.map_congr_left fun entry _ => line_eq entry.1 entry.2

theorem hasLines_render_text (source : Text) :
    HasLines (render .text source (Listing.ofText source).items)
      ((entries 0 source).map fun entry => lineBody entry.1 entry.2) := by
  refine ⟨congrArg List.flatten (lines_eq_map source), ?_⟩
  intro body mem
  obtain ⟨entry, within, rfl⟩ := List.mem_map.mp mem
  exact feed_not_mem_lineBody within

/-- **A report in text format tells its source but for the choice of blanks.**  It has one
line for each item, and two sources have the same report exactly if they are equal with a
space for each blank. -/
theorem text_report_eq_iff :
    (∀ source, ∃ bodies,
      HasLines (render .text source (Listing.ofText source).items) bodies ∧
        lines 0 source (Listing.ofText source).items = bodies.map (· ++ ['\n']) ∧
        bodies.length = (Listing.ofText source).items.length) ∧
    ∀ first second,
      render .text first (Listing.ofText first).items =
          render .text second (Listing.ofText second).items ↔
        Text.blanked first = Text.blanked second := by
  constructor
  · intro source
    refine ⟨_, hasLines_render_text source, lines_eq_map source, ?_⟩
    have read : (Listing.ofText source).items = (entries 0 source).map Prod.fst :=
      (map_fst_entries 0 source).symm
    rw [read, List.length_map, List.length_map]
  · intro first second
    constructor
    · intro same
      have bodies := (hasLines_render_text first).unique (same ▸ hasLines_render_text second)
      rw [← restore_entries 0 first, ← restore_entries 0 second,
        map_place_eq_of_map_lineBody_eq bodies]
    · intro same
      have entries_eq : entries 0 first = entries 0 second := by
        rw [← entries_blanked, same, entries_blanked]
      simp only [render, lines_eq_map, entries_eq]

end Report

end BooleanLexer
