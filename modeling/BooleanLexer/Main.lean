/-
# BooleanLexer.Main -- the program

Reads the source and writes the report that the pure part of the library works out,
in the same order as a run in the library does.
-/
import BooleanLexer.CommandLine.Program

namespace BooleanLexer.CommandLine.Main

set_option autoImplicit false

/-- The fault that the operating system reports for a path.  Its number comes as it is
or negated, depending on the call that failed. -/
def pathFault? : IO.Error → Option PathFault
  | .noFileOrDirectory .. => some .missing
  | .inappropriateType _ code _ =>
      some (if code = 21 ∨ code = 0 - 21 then .isDirectory else .notDirectory)
  | .invalidArgument _ code _ => if code = 36 ∨ code = 0 - 36 then some .tooLong else none
  | _ => none

/-- What is said about a path after an error of the operating system. -/
def pathErrorText (path : Text) (error : IO.Error) : Text :=
  match pathFault? error with
  | some fault => (Scan.Failure.unreachable path fault).message
  | none => path ++ ": ".toList ++ (toString error).toList

/-- All bytes of a stream. -/
partial def readStream (stream : IO.FS.Stream) (read : ByteArray) : IO ByteArray := do
  let chunk ← stream.read 65536
  if chunk.isEmpty then return read else readStream stream (read ++ chunk)

/-- Runs an action on a path; an error becomes the text that is said about it. -/
def onPath {α : Type} (path : Text) (act : String → IO α) : IO (Except Text α) := do
  try return .ok (← act (String.ofList path))
  catch error => return .error (pathErrorText path error)

/-- Reads a source. -/
def readSource : Scan.Origin → IO (Except Text Scan.Source)
  | .expression text => return .ok ⟨text, []⟩
  | .file path => do
      let bytes ← onPath path fun path => IO.FS.readBinFile path
      return bytes.map fun bytes => .ofBytes bytes.toList
  | .standardInput => do
      return .ok (.ofBytes (← readStream (← IO.getStdin) .empty).toList)

/-- Writes to one of the standard streams. -/
def put (stream : IO.FS.Stream) (bytes : List UInt8) : IO Unit := do
  stream.write ⟨bytes.toArray⟩
  stream.flush

/-- Ends the program. -/
def finish (ending : Ending) : IO UInt32 := do
  put (← IO.getStdout) ending.output
  put (← IO.getStderr) (Utf8.encode ending.errors)
  return ending.status.toUInt32

/-- Answers a request. -/
def answer (request : Scan.Request) : IO UInt32 := do
  match ← readSource request.origin with
  | .error text => finish (.failed text [])
  | .ok source =>
      let result := source.scan request.format
      match request.output? with
      | none => finish (.ofScan result.failure? result.report)
      | some path =>
          match ← onPath path fun path => IO.FS.writeBinFile path ⟨result.report.toArray⟩ with
          | .error text => finish (.failed text [])
          | .ok _ => finish (.ofScan result.failure? [])

/-- Runs the program. -/
def run (arguments : List Text) : IO UInt32 :=
  match Task.ofArguments arguments with
  | .scan request => answer request
  | .explain topic => finish (.ofText topic.text)
  | .showVersion => finish (.ofText versionText)
  | .requireSubcommand => finish .subcommandRequired
  | .refuse error => finish (.refused error)

end BooleanLexer.CommandLine.Main

/-- The program. -/
def main (arguments : List String) : IO UInt32 :=
  BooleanLexer.CommandLine.Main.run (arguments.map String.toList)
