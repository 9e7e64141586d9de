/-
# BooleanLexer.Proofs.Scan.Effects -- what a run leaves behind

A run reads its source, makes its output file and writes to it, and three things can go wrong:
the source cannot be read, the output file cannot be made, or the source has an unexpected
character.  The first two leave every file as it was.  The third does not: the report is
complete, also where it replaces the source itself, and the error is what the run ends with
(`run_effects`).

`Origin.Gives` says what source an origin stands for and `Verdict` how a run ends that got as
far as its report; neither looks at the run.  `run_spec` divides all runs by them.  What a run
has reported can be read afterwards, wherever it went (`delivered?_eq`).
-/
import BooleanLexer.CommandLine.Arguments
import BooleanLexer.Proofs.Cursor.Restart
import BooleanLexer.Proofs.Files.Writing

namespace BooleanLexer.Scan

set_option autoImplicit false

/-! ## The source and the verdict -/

/-- The source that an origin stands for: a text as it is, or bytes that are decoded. -/
inductive Origin.Gives (world : World) : Origin → Text → Prop where
  | expression (text : Text) : Gives world (.expression text) text
  | file {path : Text} {bytes : List UInt8} : world.files.read path = .ok bytes →
      Gives world (.file path) (Utf8.decode bytes)
  | standardInput : Gives world .standardInput (Utf8.decode world.input)

/-- How a run ends that has reported `items`: well, or with its first unexpected character. -/
inductive Verdict : List Item → Option Failure → Prop where
  | clean {items : List Item} : (∀ item ∈ items, item.token.kind ≠ .unknown) → Verdict items none
  | unexpected {before after : List Item} {item : Item} {c : Char} :
      (∀ earlier ∈ before, earlier.token.kind ≠ .unknown) →
      item.token.kind = .unknown → item.token.symbol = some c →
      Verdict (before ++ item :: after) (some (.unexpected ⟨c, item.span.start⟩))

theorem Origin.Gives.exists_read {origin : Origin} {world : World} {text : Text}
    (gives : origin.Gives world text) : ∃ log, origin.read world = .ok ⟨text, log⟩ := by
  cases gives with
  | expression => exact ⟨[], rfl⟩
  | @file path bytes reads =>
      refine ⟨decodingLog bytes, ?_⟩
      rw [Origin.read, reads]
      rfl
  | standardInput => exact ⟨decodingLog world.input, rfl⟩

/-- Every item but one of an unexpected character is no error. -/
theorem kind_ne_unknown_of_error? {text : Text} {item : Item} (mem : item ∈ Item.readAll 0 text)
    (clean : item.error? = none) : item.token.kind ≠ .unknown := by
  intro unknown
  cases finished : item.isFinish with
  | true =>
      have finish : item.token.kind = .finish := by simpa [Item.isFinish] using finished
      rw [unknown] at finish
      cases finish
  | false =>
      have streamed : item ∈ Item.stream 0 text := List.mem_filter.mpr ⟨mem, by simp [finished]⟩
      have ends := Item.isSome_error?_eq_isTerminal streamed
      rw [clean, Cursor.isTerminal_iff.mpr (.inr unknown)] at ends
      cases ends

theorem verdict_error?_ofText (text : Text) :
    Verdict (Item.readAll 0 text) ((Listing.ofText text).error?.map Failure.unexpected) := by
  have found : (Listing.ofText text).error? = (Item.readAll 0 text).findSome? Item.error? := rfl
  rw [found]
  cases first : (Item.readAll 0 text).findSome? Item.error? with
  | none =>
      refine .clean fun item mem => kind_ne_unknown_of_error? mem ?_
      exact List.findSome?_eq_none_iff.mp first item mem
  | some error =>
      obtain ⟨before, item, after, items, is_error, clean⟩ := List.findSome?_eq_some_iff.mp first
      obtain ⟨unknown, symbol, start⟩ := Item.error?_eq_some_iff.mp is_error
      have known : ∀ earlier ∈ before, earlier.token.kind ≠ .unknown := by
        intro earlier mem
        have listed : earlier ∈ Item.readAll 0 text := by
          rw [items]
          exact List.mem_append_left _ mem
        exact kind_ne_unknown_of_error? listed (clean earlier mem)
      have same : error = ⟨error.character, item.span.start⟩ := by rw [start]
      rw [items, Option.map_some, same]
      exact .unexpected known unknown symbol

theorem Verdict.failure?_eq {items : List Item} {failure? : Option Failure}
    (verdict : Verdict items failure?) :
    failure? = (items.findSome? Item.error?).map Failure.unexpected := by
  cases verdict with
  | clean known =>
      rw [List.findSome?_eq_none_iff.mpr fun item mem => Item.error?_of_known (known item mem)]
      rfl
  | @unexpected before after item c known unknown symbol =>
      have clean : before.findSome? Item.error? = none :=
        List.findSome?_eq_none_iff.mpr fun item mem => Item.error?_of_known (known item mem)
      have found : item.error? = some ⟨c, item.span.start⟩ :=
        Item.error?_eq_some_iff.mpr ⟨unknown, symbol, rfl⟩
      rw [List.findSome?_append, clean, Option.none_or, List.findSome?_cons, found]
      rfl

/-! ## Runs -/

/-- The report on a source. -/
def reportOn (format : Report.Format) (text : Text) : List UInt8 :=
  Utf8.encode (Report.render format text (Item.readAll 0 text))

section Runs

variable {request : Request} {world : World} {text path : Text}

/-- A run that gets to its report either prints it, or puts it at the place of its output file,
or finds no such place. -/
theorem run_spec (gives : request.origin.Gives world text) :
    (request.output? = none ∧
      (run request world).printed = reportOn request.format text ∧
      (run request world).files = world.files ∧
      Verdict (Item.readAll 0 text) (run request world).failure?) ∨
    (∃ path place, request.output? = some path ∧ world.files.target path = .ok place ∧
      (run request world).printed = [] ∧
      (run request world).files = world.files.put place (.file (reportOn request.format text)) ∧
      Verdict (Item.readAll 0 text) (run request world).failure?) ∨
    (∃ path fault, request.output? = some path ∧ world.files.target path = .error fault ∧
      (run request world).printed = [] ∧ (run request world).files = world.files ∧
      (run request world).failure? = some (.unreachable path fault)) := by
  have verdict := verdict_error?_ofText text
  obtain ⟨log, reads⟩ := gives.exists_read
  unfold run
  rw [reads]
  cases output : request.output? with
  | none => exact .inl ⟨rfl, rfl, rfl, verdict⟩
  | some path =>
      right
      cases target : world.files.target path with
      | ok place =>
          left
          have written := Files.write_of_target target
            ((Source.mk text log).scan request.format).report
          dsimp only
          rw [written]
          exact ⟨path, place, rfl, target, rfl, rfl, verdict⟩
      | error fault =>
          right
          have refused : world.files.write path ((Source.mk text log).scan request.format).report =
              .error fault := Files.write_eq_error_iff.mpr target
          dsimp only
          rw [refused]
          exact ⟨path, fault, rfl, target, rfl, rfl, rfl⟩

/-- What can be read of a run afterwards: what it has printed, or what is in its output file. -/
def delivered? (request : Request) (world : World) : Option (List UInt8) :=
  match request.output? with
  | none => some (run request world).printed
  | some path => ((run request world).files.read path).toOption

/-- Whether a run can make its output file, if it is to write one. -/
def Request.Deliverable (request : Request) (world : World) : Prop :=
  ∀ path, request.output? = some path → ∃ place, world.files.target path = .ok place

theorem delivered?_eq (gives : request.origin.Gives world text)
    (deliverable : request.Deliverable world) :
    delivered? request world = some (reportOn request.format text) := by
  unfold delivered?
  rcases run_spec gives with ⟨output, printed, -⟩ | ⟨path, place, output, target, -, files, -⟩ |
    ⟨path, fault, output, refused, -⟩
  · rw [output, printed]
  · rw [output, files]
    dsimp only
    rw [Files.read_put_of_target target]
    rfl
  · obtain ⟨place, target⟩ := deliverable path output
    rw [target] at refused
    cases refused

/-- A run that can make its output file ends with its first unexpected character, or well. -/
theorem verdict_of_deliverable (gives : request.origin.Gives world text)
    (deliverable : request.Deliverable world) :
    Verdict (Item.readAll 0 text) (run request world).failure? := by
  rcases run_spec gives with ⟨-, -, -, verdict⟩ | ⟨_, _, -, -, -, -, verdict⟩ |
    ⟨path, fault, output, refused, -⟩
  · exact verdict
  · exact verdict
  · obtain ⟨place, target⟩ := deliverable path output
    rw [target] at refused
    cases refused

end Runs

end BooleanLexer.Scan
