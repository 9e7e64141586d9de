/-
# BooleanLexer.Proofs.CommandLine.Routes -- the ways into the program and out of it

A text can be given as it is, or by its bytes in a file or on standard input, and its report can
be printed or put into a file.  `Origin.Carries` says what it is to give a text; only the bytes
are decoded, and decoding gives the text back (`Origin.Carries.gives`).  So neither way makes a
difference to what is reported, and none to how the program ends (`routes_agree`).

`Ends` tells the status of the program and what it says on standard error from the items alone.
-/
import BooleanLexer.Proofs.CommandLine.Requests
import BooleanLexer.Proofs.Scan.Effects
import BooleanLexer.Proofs.Utf8.RoundTrip

namespace BooleanLexer

set_option autoImplicit false

open Utf8 (encode decode)

namespace Scan

/-- The ways in which a text is given. -/
inductive Origin.Carries (world : World) : Origin → Text → Prop where
  | expression (text : Text) : Carries world (.expression text) text
  | file {path text : Text} : world.files.read path = .ok (encode text) →
      Carries world (.file path) text
  | standardInput {text : Text} : world.input = encode text → Carries world .standardInput text

/-- A source is the text that is given, whether or not it is decoded. -/
theorem Origin.Carries.gives {origin : Origin} {world : World} {text : Text}
    (carries : origin.Carries world text) : origin.Gives world text := by
  cases carries with
  | expression => exact .expression text
  | file reads =>
      have decoded := Gives.file reads
      rwa [Utf8.decode_encode] at decoded
  | standardInput input =>
      have decoded : Gives world .standardInput (decode world.input) := .standardInput
      rwa [input, Utf8.decode_encode] at decoded

/-- The bytes of a text are decoded without a warning. -/
theorem decodingLog_encode (text : Text) : decodingLog (encode text) = [] := by
  rw [decodingLog, (Utf8.fault?_eq_none_iff _).mpr ⟨text, rfl⟩]
  rfl

end Scan

namespace CommandLine

open Scan

/-- A path that leads to a file is not empty, and neither is one that a file can be made at. -/
theorem hasPaths {request : Request} {world : World} {text : Text}
    (carries : request.origin.Carries world text) (deliverable : request.Deliverable world) :
    HasPaths request where
  output := by
    rintro path output rfl
    obtain ⟨place, target⟩ := deliverable [] output
    cases target
  origin := by
    rintro path origin rfl
    rw [origin] at carries
    cases carries with
    | file reads => cases reads

/-- The status and the errors of a program that has reported `items`. -/
inductive Ends : List Item → Nat → Text → Prop where
  | clean {items : List Item} : (∀ item ∈ items, item.token.kind ≠ .unknown) → Ends items 0 []
  | unexpected {before after : List Item} {item : Item} {c : Char} :
      (∀ earlier ∈ before, earlier.token.kind ≠ .unknown) →
      item.token.kind = .unknown → item.token.symbol = some c →
      Ends (before ++ item :: after) 1
        ("Error: ".toList ++ Unexpected.message ⟨c, item.span.start⟩ ++ ['\n'])

theorem exists_ends {items : List Item} {failure? : Option Failure}
    (verdict : Verdict items failure?) :
    ∃ status errors, Ends items status errors ∧
      ∀ printed, Ending.ofScan failure? printed = ⟨status, printed, errors⟩ := by
  cases verdict with
  | clean known => exact ⟨0, [], .clean known, fun _ => rfl⟩
  | unexpected known unknown symbol =>
      exact ⟨1, _, .unexpected known unknown symbol, fun _ => rfl⟩

theorem runProgram_of_scan {arguments : List Text} {request : Request}
    (asks : Task.ofArguments arguments = .scan request) (world : World) :
    runProgram arguments world =
      (.ofScan (run request world).failure? (run request world).printed,
        (run request world).files) := by
  rw [runProgram, asks]

/-- **All ways into the program and out of it agree.**  For a text and a format there is one
report, one failure and one way in which the program ends.  They are the same however the text is
given and wherever the report goes, and the report is complete also where the program fails. -/
theorem routes_agree (text : Text) (format : Report.Format) :
    decode (encode text) = text ∧ decodingLog (encode text) = [] ∧
    ∃ items report failure? status errors, (Cursor.new text).Scans items ∧
      report = encode (Report.render format text items) ∧ Verdict items failure? ∧
      Ends items status errors ∧
      ∀ request world, request.origin.Carries world text → request.format = format →
        request.Deliverable world →
        delivered? request world = some report ∧ (run request world).failure? = failure? ∧
        Task.ofArguments (Task.scanName :: argumentsFor request) = .scan request ∧
        ∀ arguments, Task.ofArguments arguments = .scan request →
          (request.output? = none →
            runProgram arguments world = (⟨status, report, errors⟩, world.files)) ∧
          (∀ path, request.output? = some path →
            (runProgram arguments world).1 = ⟨status, [], errors⟩ ∧
              (runProgram arguments world).2.read path = .ok report) := by
  refine ⟨Utf8.decode_encode text, decodingLog_encode text, ?_⟩
  have verdict := verdict_error?_ofText text
  obtain ⟨status, errors, ends, ending⟩ := exists_ends verdict
  refine ⟨Item.readAll 0 text, reportOn format text, _, status, errors,
    Cursor.scans_new_iff.mpr rfl, rfl, verdict, ends, ?_⟩
  rintro request world carries rfl deliverable
  have gives := carries.gives
  have failure : (run request world).failure? =
      (Listing.ofText text).error?.map Failure.unexpected :=
    (verdict_of_deliverable gives deliverable).failure?_eq
  refine ⟨delivered?_eq gives deliverable, failure,
    ofArguments_argumentsFor (hasPaths carries deliverable), fun arguments asks => ?_⟩
  rw [runProgram_of_scan asks, failure, ending]
  rcases run_spec gives with ⟨output, printed, files, -⟩ |
    ⟨path, place, output, target, printed, files, -⟩ | ⟨path, fault, output, refused, -⟩
  · rw [output, printed, files]
    exact ⟨fun _ => rfl, nofun⟩
  · rw [output, printed, files]
    refine ⟨nofun, ?_⟩
    rintro _ ⟨⟩
    exact ⟨rfl, Files.read_put_of_target target _⟩
  · -- The report has no way out of the program if its file cannot be made.
    obtain ⟨place, target⟩ := deliverable path output
    rw [target] at refused
    cases refused

/-- A text with the replacement character in it, given as it is, and in a file that the report
replaces. -/
theorem routes_agree_on_replacement_character :
    let text : Text := ['a', '\ufffd']
    let files : Files := ⟨fun place =>
      if place = [] then some .directory
      else if place = ["x".toList] then some (.file [0x61, 0xef, 0xbf, 0xbd])
      else none, []⟩
    let typed : Request := ⟨.expression text, none, .text⟩
    let filed : Request := ⟨.file "x".toList, some "x".toList, .text⟩
    typed.origin.Carries ⟨files, []⟩ text ∧ typed.Deliverable ⟨files, []⟩ ∧
      filed.origin.Carries ⟨files, []⟩ text ∧ filed.Deliverable ⟨files, []⟩ ∧
      ∃ report, runProgram (Task.scanName :: argumentsFor typed) ⟨files, []⟩ =
          (⟨1, report, "Error: Unexpected character '\ufffd' at offset 1.\n".toList⟩, files) ∧
        (runProgram (Task.scanName :: argumentsFor filed) ⟨files, []⟩).1 =
          ⟨1, [], "Error: Unexpected character '\ufffd' at offset 1.\n".toList⟩ ∧
        (runProgram (Task.scanName :: argumentsFor filed) ⟨files, []⟩).2.read "x".toList =
          .ok report := by
  intro text files typed filed
  have reads : files.read "x".toList = .ok (encode text) := by decide +kernel
  have target : files.target "x".toList = .ok ["x".toList] := by decide +kernel
  have carries : typed.origin.Carries ⟨files, []⟩ text := .expression text
  have carries' : filed.origin.Carries ⟨files, []⟩ text := .file reads
  have deliverable : typed.Deliverable ⟨files, []⟩ := nofun
  have deliverable' : filed.Deliverable ⟨files, []⟩ := by
    rintro _ ⟨⟩
    exact ⟨_, target⟩
  obtain ⟨-, -, items, report, failure?, status, errors, -, -, -, -, agree⟩ :=
    routes_agree text .text
  obtain ⟨-, -, read_back, printing⟩ := agree typed ⟨files, []⟩ carries rfl deliverable
  obtain ⟨-, -, read_back', writing⟩ := agree filed ⟨files, []⟩ carries' rfl deliverable'
  have printed := (printing _ read_back).1 rfl
  obtain ⟨ending, written⟩ := (writing _ read_back').2 _ rfl
  have failed : Ending.status (runProgram (Task.scanName :: argumentsFor typed) ⟨files, []⟩).1 = 1 ∧
      Ending.errors (runProgram (Task.scanName :: argumentsFor typed) ⟨files, []⟩).1 =
        "Error: Unexpected character '\ufffd' at offset 1.\n".toList := by
    decide +kernel
  rw [printed] at failed
  obtain ⟨rfl, rfl⟩ := failed
  exact ⟨carries, deliverable, carries', deliverable', report, printed, ending, written⟩

end CommandLine

end BooleanLexer
