/-
# BooleanLexer.Scan.Run -- scanning on request

A request says where the source comes from, in which format its tokens are reported,
and where the report goes.  A run reads the source, scans all of it, and only then
replaces the output file or prints; an unexpected character does not cut the report
short, but is the failure of the run.  A run that cannot read its source or cannot
make its output file fails without any effect.
-/
import BooleanLexer.Files.Basic
import BooleanLexer.Report
import BooleanLexer.Scan.Listing

namespace BooleanLexer.Scan

set_option autoImplicit false

/-- Where a source comes from. -/
inductive Origin where
  | expression (text : Text)
  | file (path : Text)
  | standardInput
deriving DecidableEq

/-- What to scan and how to report it. -/
structure Request where
  origin : Origin
  /-- The file that the report replaces; without one, the report is printed. -/
  output? : Option Text
  format : Report.Format
deriving DecidableEq

/-- What a run finds around it. -/
structure World where
  files : Files
  input : List UInt8

/-- Why a run fails. -/
inductive Failure where
  | unreachable (path : Text) (fault : PathFault)
  | unexpected (error : Unexpected)
deriving DecidableEq

/-- What is said about a failed run. -/
def Failure.message : Failure → Text
  | .unreachable path fault => path ++ ": ".toList ++ fault.message
  | .unexpected error => error.message

/-- What a run leaves behind. -/
structure Outcome where
  failure? : Option Failure
  printed : List UInt8
  files : Files
  log : List Log.Record

/-- The record that is made before a source is read. -/
def Origin.log : Origin → List Log.Record
  | expression _ => []
  | file path => [⟨.debug, "reading expression from ".toList ++ path⟩]
  | standardInput => [⟨.debug, "reading expression from stdin".toList⟩]

/-- A source and the records of decoding it. -/
structure Source where
  text : Text
  log : List Log.Record
deriving DecidableEq

/-- The source that is written in bytes. -/
def Source.ofBytes (bytes : List UInt8) : Source := ⟨Utf8.decode bytes, decodingLog bytes⟩

/-- Reads a source. -/
def Origin.read (world : World) : Origin → Except Failure Source
  | expression text => .ok ⟨text, []⟩
  | file path =>
      match world.files.read path with
      | .ok bytes => .ok (.ofBytes bytes)
      | .error fault => .error (.unreachable path fault)
  | standardInput => .ok (.ofBytes world.input)

/-- What scanning a source gives. -/
structure Result where
  report : List UInt8
  /-- The failure for the first unexpected character. -/
  failure? : Option Failure
  log : List Log.Record
deriving DecidableEq

/-- Scans all of a source and reports on it. -/
def Source.scan (source : Source) (format : Report.Format) : Result :=
  let listing := Listing.ofText source.text
  { report := Utf8.encode (Report.render format source.text listing.items)
    failure? := listing.error?.map Failure.unexpected
    log := source.log ++ listing.log source.text }

/-- Answers a request. -/
def run (request : Request) (world : World) : Outcome :=
  match request.origin.read world with
  | .error failure => ⟨some failure, [], world.files, request.origin.log⟩
  | .ok source =>
      let result := source.scan request.format
      let log := request.origin.log ++ result.log
      match request.output? with
      | none => ⟨result.failure?, result.report, world.files, log⟩
      | some path =>
          match world.files.write path result.report with
          | .ok files => ⟨result.failure?, [], files, log⟩
          | .error fault => ⟨some (.unreachable path fault), [], world.files, log⟩

end BooleanLexer.Scan
