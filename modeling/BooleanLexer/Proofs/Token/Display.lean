/-
# BooleanLexer.Proofs.Token.Display -- what is shown of a token

A token shows its kind, which can be told by the first character of its display
(`Token.head?_display`).  A letter shows its character and its index as well, and an unexpected
character shows itself; tokens of other kinds show nothing more, and neither does a letter or an
unexpected character that has no symbol.  `Token.Alike` says this by the fields of two tokens, of
which there may be any, and it is the only way in which displays are ambiguous
(`Token.display_eq_iff`).

The record of a token is its display with its offset behind it.  What is read shows no space, so
the record is divided in one way (`Item.scanned_eq_iff`), and the records of two scans differ
exactly if what is shown of their items does (`records_shown_alike`).
-/
import BooleanLexer.Proofs.Item.Concatenation
import BooleanLexer.Proofs.Report.Columns
import BooleanLexer.Proofs.Scan.Transcript

namespace BooleanLexer

set_option autoImplicit false

open Text (isBlank append_inj_of_stop)
open Scan (Listing scanned traces)

/-! ## Tokens -/

/-- The kind is told by the first character of its spelling. -/
theorem Kind.eq_of_head?_spelling_eq {kind kind' : Kind}
    (same : kind.spelling.head? = kind'.spelling.head?) : kind = kind' := by
  have table : Kind.all.all (fun kind => Kind.all.all fun kind' =>
      kind.spelling.head? = kind'.spelling.head? → kind = kind') = true := by decide
  have row := List.all_eq_true.mp table kind kind.mem_all
  exact of_decide_eq_true (List.all_eq_true.mp row kind' kind'.mem_all) same

namespace Token

/-- Whether two tokens have the same kind and agree in what is shown of it: the character and
the index of a letter that has a character, and the character of one that is unexpected. -/
def Alike (token token' : Token) : Prop :=
  token.kind = token'.kind ∧
    match token.kind with
    | .ident =>
        (token.symbol = none ∧ token'.symbol = none) ∨
        (∃ letter, token.symbol = some letter ∧ token'.symbol = some letter) ∧
          token.index = token'.index
    | .unknown => token.symbol = token'.symbol
    | _ => True

theorem head?_display (token : Token) : token.display.head? = token.kind.spelling.head? := by
  unfold display
  split
  · next ident _ => rw [ident]; rfl
  · next unknown _ => rw [unknown]; rfl
  · rfl

theorem kind_eq_of_display_eq {token token' : Token} (same : token.display = token'.display) :
    token.kind = token'.kind := by
  apply Kind.eq_of_head?_spelling_eq
  rw [← head?_display, ← head?_display, same]

theorem display_of_other {token : Token} (letter : token.kind ≠ .ident)
    (known : token.kind ≠ .unknown) : token.display = token.kind.spelling := by
  unfold display
  split
  · next ident _ => exact absurd ident letter
  · next unknown _ => exact absurd unknown known
  · rfl

/-- A letter shows its character between two marks, and then its index. -/
theorem display_ident_inj {letter letter' : Char} {index index' : Nat}
    (same : display (.ident letter index) = display (.ident letter' index')) :
    letter = letter' ∧ index = index' := by
  simp only [display, ident, List.append_assoc] at same
  obtain ⟨letters, behind⟩ := List.cons.inj (List.append_cancel_left same)
  have digits : Text.decimal index = Text.decimal index' :=
    List.append_cancel_right (List.append_cancel_left behind)
  exact ⟨letters, Text.decimal_injective digits⟩

/-- An unexpected character can be read back from between its apostrophes. -/
theorem display_unknown_inj {c c' : Char} {index index' : Nat}
    (same : display ⟨.unknown, some c, index⟩ = display ⟨.unknown, some c', index'⟩) :
    c = c' := by
  simp only [display, Text.quotedChar, List.append_assoc] at same
  have escaped := List.append_cancel_left (List.append_cancel_left same)
  exact (Text.escape_append_inj (by decide) escaped).1

/-- Displays are ambiguous in the fields that are not shown, and nowhere else. -/
theorem display_eq_iff (token token' : Token) :
    token.display = token'.display ↔ token.Alike token' := by
  obtain ⟨kind, symbol, index⟩ := token
  obtain ⟨kind', symbol', index'⟩ := token'
  constructor
  · intro same
    obtain rfl : kind = kind' := kind_eq_of_display_eq same
    refine ⟨rfl, ?_⟩
    -- A display without a character ends where one with a character goes on.
    cases kind with
    | ident =>
        cases symbol <;> cases symbol'
        · exact .inl ⟨rfl, rfl⟩
        · simp [display, Kind.spelling] at same
        · simp [display, Kind.spelling] at same
        · obtain ⟨rfl, rfl⟩ := display_ident_inj same
          exact .inr ⟨⟨_, rfl, rfl⟩, rfl⟩
    | unknown =>
        cases symbol <;> cases symbol'
        · rfl
        · simp [display, Kind.spelling] at same
        · simp [display, Kind.spelling] at same
        · rw [display_unknown_inj same]
    | _ => trivial
  · rintro ⟨kinds, shown⟩
    obtain rfl : kind = kind' := kinds
    cases kind with
    | ident =>
        rcases shown with ⟨none_first, none_second⟩ | ⟨⟨letter, first, second⟩, indices⟩
        · obtain rfl : symbol = none := none_first
          obtain rfl : symbol' = none := none_second
          rfl
        · obtain rfl : symbol = some letter := first
          obtain rfl : symbol' = some letter := second
          obtain rfl : index = index' := indices
          rfl
    | unknown =>
        obtain rfl : symbol = symbol' := shown
        cases symbol <;> rfl
    | _ => rw [display_of_other (by simp) (by simp), display_of_other (by simp) (by simp)]

/-- An operator does not show what it was written with. -/
example : display (.plain .or '+') = display (.plain .or '|') := rfl

end Token

/-! ## Records -/

namespace Token

/-- The character of a token, where its kind does not tell it. -/
def shownSymbol (token : Token) : Option Char :=
  if token.kind = .ident ∨ token.kind = .unknown then token.symbol else none

theorem shownSymbol_leading {c : Char}
    (shows : (leading c).kind = .ident ∨ (leading c).kind = .unknown) :
    (leading c).shownSymbol = some c := by
  rw [shownSymbol, if_pos shows, Lexeme.symbol_leading]

/-- What is read is shown alike if the characters that are shown are the same; the index of a
letter follows from its character. -/
theorem alike_leading_iff (c d : Char) :
    (leading c).Alike (leading d) ↔ (leading c).kind = (leading d).kind ∧
      (leading c).shownSymbol = (leading d).shownSymbol := by
  have symbol := Lexeme.symbol_leading c
  have symbol' := Lexeme.symbol_leading d
  -- What is read has a character, so characters that are shown can be compared.
  have same_character (kinds : (leading c).kind = (leading d).kind)
      (shows : (leading c).kind = .ident ∨ (leading c).kind = .unknown)
      (symbols : (leading c).shownSymbol = (leading d).shownSymbol) : c = d := by
    rw [shownSymbol_leading shows, shownSymbol_leading (kinds ▸ shows)] at symbols
    exact Option.some.inj symbols
  constructor
  · rintro ⟨kinds, shown⟩
    refine ⟨kinds, ?_⟩
    rw [shownSymbol, shownSymbol, ← kinds]
    split
    · next shows =>
        rcases shows with ident | unknown
        · simp only [ident, symbol, symbol'] at shown ⊢
          obtain ⟨absent, -⟩ | ⟨⟨letter, first, second⟩, -⟩ := shown
          · cases absent
          · rw [first, second]
        · simpa only [unknown] using shown
    · rfl
  · rintro ⟨kinds, symbols⟩
    refine ⟨kinds, ?_⟩
    cases kind : (leading c).kind with
    | ident =>
        obtain rfl := same_character kinds (.inl kind) symbols
        exact .inr ⟨⟨c, symbol, symbol⟩, rfl⟩
    | unknown =>
        obtain rfl := same_character kinds (.inr kind) symbols
        rfl
    | _ => trivial

end Token

/-- What the record of an item shows: where the item starts, its kind, and its character where
the kind does not tell it. -/
def Item.shown (item : Item) : Nat × Kind × Option Char :=
  (item.span.start, item.token.kind, item.token.shownSymbol)

/-- A record is divided behind its token, which shows no space, and ends with the offset. -/
theorem Scan.scanned_eq_iff {item item' : Item} (plain : ∀ d ∈ item.token.display, d ≠ ' ')
    (plain' : ∀ d ∈ item'.token.display, d ≠ ' ') :
    scanned item = scanned item' ↔
      item.token.display = item'.token.display ∧ item.span.start = item'.span.start := by
  constructor
  · intro same
    have texts := congrArg Log.Record.text same
    simp only [scanned, List.append_assoc] at texts
    have solid {display : Text} (plain : ∀ d ∈ display, d ≠ ' ') :
        ∀ d ∈ display, decide (d ≠ ' ') = true := fun d mem => decide_eq_true (plain d mem)
    obtain ⟨displays, offsets⟩ := append_inj_of_stop (fun d => decide (d ≠ ' '))
      (List.append_cancel_left texts) (solid plain) (by simp) (solid plain') (by simp)
    exact ⟨displays, Text.decimal_injective (List.append_cancel_left offsets)⟩
  · rintro ⟨displays, offsets⟩
    rw [scanned, scanned, displays, offsets]

/-- The records of what is read tell what is shown, whatever it was read from. -/
theorem Item.scanned_eq_iff {position position' : Nat} {text text' : Text} {item item' : Item}
    (mem : item ∈ stream position text) (mem' : item' ∈ stream position' text') :
    scanned item = scanned item' ↔ item.shown = item'.shown := by
  obtain ⟨before, c, rest, -, solid, rfl⟩ := exists_of_mem_stream mem
  obtain ⟨before', d, rest', -, solid', rfl⟩ := exists_of_mem_stream mem'
  have plain {c : Char} (solid : isBlank c = false) :
      ∀ d ∈ (Token.leading c).display, d ≠ ' ' :=
    fun d mem => (Token.ne_of_mem_display_leading solid d mem).1
  rw [Scan.scanned_eq_iff (plain solid) (plain solid'), Token.display_eq_iff,
    Token.alike_leading_iff, shown, shown, Prod.mk.injEq, Prod.mk.injEq, and_comm]

/-! ## Scans -/

/-- The records of the tokens of a scan. -/
theorem Scan.traces_log_ofText (source : Text) :
    traces ((Listing.ofText source).log source) = (Item.stream 0 source).map scanned := by
  have counted : traces [countRecord source (Listing.ofText source).items] = [] := rfl
  rw [log_ofText, traces_append, (recounts_stream 0 source).traces_eq]
  exact List.append_nil _

/-- The records that reading items leaves are those of all but the end. -/
theorem Scan.filterMap_traceRecord? (items : List Item) :
    items.filterMap Item.traceRecord? = (Cursor.yielded items).map scanned := by
  rw [Cursor.yielded]
  induction items with
  | nil => rfl
  | cons item items ih =>
      cases finish : item.isFinish with
      | true =>
          have silent : item.traceRecord? = none := if_pos finish
          rw [List.filterMap_cons_none silent, List.filter_cons_of_neg (by simp [finish]), ih]
      | false =>
          rw [List.filterMap_cons_some (traceRecord?_of_unfinished finish),
            List.filter_cons_of_pos (by simp [finish]), ih, List.map_cons]

theorem map_scanned_stream_eq_iff (first second : Text) :
    (Item.stream 0 first).map scanned = (Item.stream 0 second).map scanned ↔
      (Item.stream 0 first).map Item.shown = (Item.stream 0 second).map Item.shown :=
  ⟨Text.map_eq_map_of_mem fun _ mem _ mem' => (Item.scanned_eq_iff mem mem').mp,
    Text.map_eq_map_of_mem fun _ mem _ mem' => (Item.scanned_eq_iff mem mem').mpr⟩

/-- **Displays and records are ambiguous in what is not shown, and nowhere else.**  Any two tokens
are displayed alike exactly if they have the same kind and agree in the fields that are shown of
it.  The records of the tokens of a scan are those of its items but the end, and two sources have
the same ones exactly if their items start at the same places, with the same kinds and, for
letters and unexpected characters, with the same characters. -/
theorem records_shown_alike :
    (∀ token token' : Token, token.display = token'.display ↔ token.Alike token') ∧
    (∀ source : Text, traces ((Listing.ofText source).log source) =
      (Cursor.new source).readAll.1.filterMap Item.traceRecord?) ∧
    ∀ first second : Text,
      traces ((Listing.ofText first).log first) = traces ((Listing.ofText second).log second) ↔
        ((Listing.ofText first).items.filter fun item => !item.isFinish).map Item.shown =
          ((Listing.ofText second).items.filter fun item => !item.isFinish).map Item.shown := by
  refine ⟨Token.display_eq_iff, fun source => ?_, fun first second => ?_⟩
  · rw [Scan.traces_log_ofText, Scan.filterMap_traceRecord?, Cursor.yielded_readAll_new]
  · rw [Scan.traces_log_ofText, Scan.traces_log_ofText]
    exact map_scanned_stream_eq_iff first second

end BooleanLexer
