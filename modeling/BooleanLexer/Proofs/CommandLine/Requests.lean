/-
# BooleanLexer.Proofs.CommandLine.Requests -- arguments for a request

Every request can be written as arguments: its format and its paths as options with attached
values, and an expression behind the mark that ends the options, so that it may start with a dash
or be empty.  The program reads the request back (`ofArguments_argumentsFor`).  The only requests
left out are those with an empty path, which lead to no file.
-/
import BooleanLexer.CommandLine.Program

namespace BooleanLexer

set_option autoImplicit false

theorem Report.Format.ofName?_name (format : Format) : ofName? format.name = some format := by
  cases format <;> decide

namespace CommandLine

/-! ## Options -/

/-- An option with its value attached. -/
def Parameter.word (option : Parameter) (value : Text) : Text :=
  "--".toList ++ option.longName ++ '=' :: value

theorem ofText_word (option : Parameter) (value : Text) :
    Word.ofText (option.word value) = .long option.longName (some value) := by
  cases option <;> rfl

theorem ofLongName?_longName {option : Parameter} (named : option ∈ Parameter.options) :
    Parameter.ofLongName? option.longName = some option := by
  revert named
  cases option <;> decide

/-- An option with its value attached is taken at once. -/
theorem take_word {option : Parameter} {value : Text} {given : List (Parameter × Text)}
    (named : option ∈ Parameter.options) (fresh : given.lookup option = none)
    (nonempty : value ≠ []) (valid : option = .format → Report.Format.ofName? value ≠ none)
    (arguments : List Text) :
    Draft.take ⟨given, none⟩ (option.word value :: arguments) =
      Draft.take ⟨given ++ [(option, value)], none⟩ arguments := by
  -- Help is asked for before any option is looked up, so its name must be none of theirs.
  have no_help : option.longName ≠ "help".toList := by
    revert named
    cases option <;> decide
  have new : ¬ ((Draft.value? ⟨given, none⟩ option).isSome) := by
    simp [Draft.value?, fresh]
  have right : ¬ (option = .format ∧ Report.Format.ofName? value = none) :=
    fun wrong => valid wrong.1 wrong.2
  have assigned : Draft.assign ⟨given, none⟩ option value =
      .ok ⟨given ++ [(option, value)], none⟩ := by
    rw [Draft.assign, if_neg new, if_neg nonempty, if_neg right]
  have taken : Draft.takeLong ⟨given, none⟩ option.longName (some value) =
      .ok ⟨given ++ [(option, value)], none⟩ := by
    rw [Draft.takeLong, if_neg no_help, ofLongName?_longName named]
    dsimp only
    rw [Draft.takeOption, Draft.settle]
    exact congrArg (Except.mapError Halt.refused) assigned
  rw [Draft.take, ofText_word]
  dsimp only
  rw [taken]
  rfl

/-! ## Requests -/

/-- The arguments for the origin of a source. -/
def originWords : Scan.Origin → List Text
  | .expression text => ["--".toList, text]
  | .file path => [Parameter.input.word path]
  | .standardInput => []

/-- The parameter that the origin of a source gives. -/
def originGiven : Scan.Origin → List (Parameter × Text)
  | .expression text => [(.expression, text)]
  | .file path => [(.input, path)]
  | .standardInput => []

/-- The arguments for a request, behind the name of the scan command. -/
def argumentsFor (request : Scan.Request) : List Text :=
  Parameter.format.word request.format.name ::
    (request.output?.toList.map Parameter.output.word ++ originWords request.origin)

/-- Whether no path of a request is empty. -/
structure HasPaths (request : Scan.Request) : Prop where
  output : ∀ path, request.output? = some path → path ≠ []
  origin : ∀ path, request.origin = .file path → path ≠ []

theorem take_originWords {origin : Scan.Origin} {given : List (Parameter × Text)}
    (no_expression : given.lookup .expression = none) (no_input : given.lookup .input = none)
    (nonempty : ∀ path, origin = .file path → path ≠ []) :
    Draft.take ⟨given, none⟩ (originWords origin) = .ok ⟨given ++ originGiven origin, none⟩ := by
  cases origin with
  | expression text =>
      have new : ¬ ((Draft.value? ⟨given, none⟩ .expression).isSome) := by
        simp [Draft.value?, no_expression]
      have taken : Draft.takeExpression ⟨given, none⟩ text =
          .ok ⟨given ++ [(.expression, text)], none⟩ := by
        rw [Draft.takeExpression, if_neg new]
        rfl
      -- Behind the mark, no word is read as an option.
      change Draft.takeWords ⟨given, none⟩ [text] = _
      rw [Draft.takeWords, List.foldlM_cons, taken]
      rfl
  | file path =>
      rw [originWords, take_word (by decide) no_input (nonempty path rfl) nofun]
      rfl
  | standardInput =>
      rw [originGiven, List.append_nil]
      rfl

/-- What is given for a request. -/
def givenFor (request : Scan.Request) : List (Parameter × Text) :=
  (.format, request.format.name) ::
    (request.output?.toList.map (Prod.mk .output) ++ originGiven request.origin)

/-- An expression and an input file are not given both. -/
theorem checkConflict_givenFor (request : Scan.Request) :
    Draft.checkConflict ⟨givenFor request, none⟩ = .ok () := by
  obtain ⟨origin, output?, format⟩ := request
  cases output? <;> cases origin <;> rfl

/-- What is given for a request makes that request. -/
theorem request_givenFor (request : Scan.Request) :
    Draft.request ⟨givenFor request, none⟩ = request := by
  have format_read : ((some request.format.name).bind Report.Format.ofName?).getD default =
      request.format := by
    rw [Option.bind_some, Report.Format.ofName?_name]
    rfl
  obtain ⟨origin, output?, format⟩ := request
  cases output? <;> cases origin <;> exact congrArg (Scan.Request.mk _ _) format_read

theorem take_argumentsFor {request : Scan.Request} (has_paths : HasPaths request) :
    Draft.empty.take (argumentsFor request) = .ok ⟨givenFor request, none⟩ := by
  have named : request.format.name ≠ [] := by cases request.format <;> decide
  have known : Report.Format.ofName? request.format.name ≠ none := by
    simp [Report.Format.ofName?_name]
  rw [argumentsFor, Draft.empty, take_word (by decide) rfl named fun _ => known, givenFor]
  cases output : request.output? with
  | none => exact take_originWords rfl rfl has_paths.origin
  | some path =>
      have fresh : [(Parameter.format, request.format.name)].lookup .output = none := rfl
      have nonempty := has_paths.output path output
      calc Draft.take ⟨[(.format, request.format.name)], none⟩
            (Parameter.output.word path :: originWords request.origin)
        _ = Draft.take ⟨[(.format, request.format.name)] ++ [(.output, path)], none⟩
            (originWords request.origin) := take_word (by decide) fresh nonempty nofun _
        _ = _ := take_originWords rfl rfl has_paths.origin

/-- **The program reads back the request that arguments are written for.** -/
theorem ofArguments_argumentsFor {request : Scan.Request} (has_paths : HasPaths request) :
    Task.ofArguments (Task.scanName :: argumentsFor request) = .scan request := by
  have finished : Draft.finish ⟨givenFor request, none⟩ = .ok request := by
    change (do Draft.checkConflict ⟨givenFor request, none⟩; return _) = _
    rw [checkConflict_givenFor, request_givenFor]
    rfl
  have read : readRequest (argumentsFor request) = .ok request := by
    rw [readRequest, take_argumentsFor has_paths]
    exact congrArg (Except.mapError Halt.refused) finished
  -- The first argument is a plain word, the name of the command.
  change Task.ofScanArguments _ = _
  rw [Task.ofScanArguments, read]

end CommandLine

end BooleanLexer
