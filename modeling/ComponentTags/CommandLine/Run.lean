import ComponentTags.CommandLine.Help
import ComponentTags.CommandLine.Invocation
import ComponentTags.CommandLine.Output
import ComponentTags.Settings.Building

/-!
# Running a command line

The program as a function: from what it can see, its arguments, files, input and environment, to what it
writes and the code it exits with. `compile` writes its result to one place, a file or the standard
output. If it fails before that it writes nothing; if the writing itself breaks off, the file holds as much as was
written by then. Failures that a command does not report leave the program.
-/

namespace ComponentTags.CommandLine

/-- What a run can see. -/
structure System where
  tree : FileTree
  input : Text.Bytes
  environment : Settings.Environment

/-- How a run ends. -/
structure Outcome where
  exitCode : Nat
  streams : Streams
  tree : FileTree

/-- The project in the working directory. -/
def SharedOptions.project (shared : SharedOptions) (root : Path) : Settings.Project :=
  .ofText root shared.settingsFile

namespace System

/-- The settings of the project. -/
def settings [Services] (system : System) (shared : SharedOptions) : Logged Fields :=
  Settings.load system.tree system.environment (shared.project system.tree.root) true

/-- The text of a template: the standard input for `-`, or else a file. -/
def template [Services] (system : System) (source : String) : Except Failure (List Char) := do
  let bytes ←
    if source = "-" then pure system.input
    else Services.readFile system.tree (Path.ofString source)
  (readTextFile bytes).mapError .encoding

end System

/-- The file that the result goes to, if it does not go to the standard output. -/
def outputFile? (output : Option String) : Option String :=
  output.filter (· != "")

/-- Compiles a template under the settings of the project: the text that it becomes, and the report. -/
def compileTemplate [Services] (system : System) (source : String) (shared : SharedOptions) :
    Logged (String × Report) := do
  let compiler ← Settings.compiler (← system.settings shared) shared.tagPrefix
  let template ← .silent (system.template source)
  match compiler.compile (String.ofList template) with
  | .error e => .fail (.pattern e)
  | .ok (text, report) =>
    report.events.forM Logged.tell
    return (text, report)

/-- The files after something was written, and the failure that it ended with, if it did. -/
structure Writing where
  tree : FileTree
  failure : Option Failure

/-- How much is written of a content, and what ends it there. -/
def written [Services] (path : Path) (content : Text.Bytes) : Text.Bytes × Option Failure :=
  match Services.writeObstacle path content with
  | some (count, e) => (content.take count, some (.obstacle e))
  | none => (content, none)

/-- Opens a file, which empties it, and writes its content as far as nothing stands in the way. -/
def writeFile [Services] (tree : FileTree) (path : Path) (content : Text.Bytes) : Writing :=
  match Services.openObstacle path with
  | some e => ⟨tree, some (.obstacle e)⟩
  | none =>
    match tree.write path (written path content).1 with
    | .error e => ⟨tree, some (.access e)⟩
    | .ok after => ⟨after, (written path content).2⟩

/-- Writes a text to the output file, if there is one. -/
def deliver [Services] (tree : FileTree) (output : Option String) (text : String) : Writing :=
  match outputFile? output with
  | none => ⟨tree, none⟩
  | some file => writeFile tree (Path.ofString file) (Text.encodeUtf8 text)

/-- The files that a request may read or write. -/
def Request.paths (root : Path) : Request → List Path
  | .compile source output _ shared =>
    let template := if source = "-" then [] else [Path.ofString source]
    Request.paths root (.components shared) ++ template ++
      (outputFile? output).toList.map Path.ofString
  | .components shared =>
    let project := shared.project root
    project.settingsFile.toList ++ project.usualFiles

/-- The registry that `components` lists. -/
def listedRegistry [Services] (system : System) (shared : SharedOptions) : Logged Registry := do
  Settings.registry (← system.settings shared) shared.tagPrefix

/-- The result of `compile` as data. -/
def compilationData (source : String) (output : Option String) (text : String) (report : Report) : Value :=
  let place :=
    match outputFile? output with
    | some file => ("output", Value.text file)
    | none => ("compiled", Value.text text)
  .object [("source", .text source), ("report", report.toValue), place]

/-- The line about a component in the report of `compile`. -/
def reportLine (tagPrefix : Value) (r : ComponentReport) : String :=
  let counts := r.tally.map fun (name, count) => name ++ "=" ++ Decimal.intText count
  tagPrefix.plain ++ r.tag.plain ++ " (" ++ r.view ++ "): " ++ ", ".intercalate counts

/-- The report of `compile` as text. -/
def reportText (r : Report) : String :=
  page (r.components.map (reportLine r.tagPrefix) ++ ["total rewrites: " ++ Decimal.intText r.total])

/-- What `compile` prints. -/
def compilationStreams (source : String) (output : Option String) (withReport json : Bool)
    (text : String) (report : Report) : Streams :=
  if json then Printer.data ⟨true, .lines 2⟩ (compilationData source output text report)
  else
    { out := if (outputFile? output).isSome then "" else text
      err := if withReport then reportText report else "" }

/-- A component of a registry as data. -/
def componentData (r : Registry) (c : Component) : Value :=
  .record (c.fields ++ [("element", .text (c.element r.tagPrefix))])

/-- The line about a component in the list of `components`. -/
def componentLine (r : Registry) (c : Component) : String :=
  let model :=
    match c.dataModel with
    | some model => " [" ++ model.plain ++ "]"
    | none => ""
  "<" ++ c.element r.tagPrefix ++ "> -> " ++ c.view ++ model

/-- What `components` prints. -/
def listStreams (json : Bool) (r : Registry) : Streams :=
  if json then
    Printer.data ⟨true, .lines 2⟩ (.object
      [("prefix", r.tagPrefix), ("components", .list (r.components.map (componentData r)))])
  else if r.components.isEmpty then Printer.text "No components registered."
  else { out := page (r.components.map (componentLine r)) }

/-- Whether `compile` reports a failure: the problems of the library, templates that are no text, and whatever
the system refuses. -/
def isReportedByCompile : Failure → Bool
  | .encoding _ => true
  | e => e.problem?.isSome || e.refusal?.isSome

/-- Whether `components` reports a failure: the problems of the library only. -/
def isReportedByList (e : Failure) : Bool :=
  e.problem?.isSome

/-- An exit code and what a command prints at its end. -/
structure Ending where
  exitCode : Nat
  streams : Streams

/-- The end of a command that failed. A failure that it does not report leaves the program. -/
def failed (isReported : Failure → Bool) (json : Bool) (code : String) (e : Failure) :
    Except Failure Ending :=
  if isReported e then .ok ⟨1, Printer.error ⟨json, .lines 2⟩ e.problem? e.message code⟩
  else .error e

/-- What a command does: its log, how it ends, and the files that it leaves. -/
structure Execution where
  events : List Event
  ending : Except Failure Ending
  tree : FileTree

/-- The lines of the log, which are written in verbose runs only. -/
def logStreams (verbose : Bool) (events : List Event) : Streams :=
  { err := if verbose then String.join (events.map (·.line)) else "" }

/-- Executes a command, up to what it prints at its end. -/
def execute [Services] (system : System) : Request → Execution
  | .compile source output withReport shared =>
    let compiled := compileTemplate system source shared
    let failed := failed isReportedByCompile shared.json "compile_error"
    match compiled.result with
    | .error e => ⟨compiled.events, failed e, system.tree⟩
    | .ok (text, report) =>
      let writing := deliver system.tree output text
      match writing.failure with
      | some e => ⟨compiled.events, failed e, writing.tree⟩
      | none =>
        ⟨compiled.events, .ok ⟨0, compilationStreams source output withReport shared.json text report⟩,
          writing.tree⟩
  | .components shared =>
    let listed := listedRegistry system shared
    match listed.result with
    | .error e => ⟨listed.events, failed isReportedByList shared.json "config_error" e, system.tree⟩
    | .ok r => ⟨listed.events, .ok ⟨0, listStreams shared.json r⟩, system.tree⟩

section

variable [Services] {system : System} {source : String} {output : Option String} {withReport : Bool}
  {shared : SharedOptions} {text : String} {report : Report} {e : Failure} {r : Registry}

theorem execute_of_compile_error (h : (compileTemplate system source shared).result = .error e) :
    execute system (.compile source output withReport shared) =
      ⟨(compileTemplate system source shared).events, failed isReportedByCompile shared.json "compile_error" e,
        system.tree⟩ := by
  simp only [execute, h]

/-- A compilation whose text was made but not written to its end. -/
theorem execute_of_deliver_error (h : (compileTemplate system source shared).result = .ok (text, report))
    (hfailure : (deliver system.tree output text).failure = some e) :
    execute system (.compile source output withReport shared) =
      ⟨(compileTemplate system source shared).events, failed isReportedByCompile shared.json "compile_error" e,
        (deliver system.tree output text).tree⟩ := by
  simp only [execute, h, hfailure]

theorem execute_of_deliver (h : (compileTemplate system source shared).result = .ok (text, report))
    (hfailure : (deliver system.tree output text).failure = none) :
    execute system (.compile source output withReport shared) =
      ⟨(compileTemplate system source shared).events,
        .ok ⟨0, compilationStreams source output withReport shared.json text report⟩,
        (deliver system.tree output text).tree⟩ := by
  simp only [execute, h, hfailure]

theorem execute_of_list_error (h : (listedRegistry system shared).result = .error e) :
    execute system (.components shared) =
      ⟨(listedRegistry system shared).events, failed isReportedByList shared.json "config_error" e, system.tree⟩ := by
  simp only [execute, h]

theorem execute_of_list (h : (listedRegistry system shared).result = .ok r) :
    execute system (.components shared) =
      ⟨(listedRegistry system shared).events, .ok ⟨0, listStreams shared.json r⟩, system.tree⟩ := by
  simp only [execute, h]

end

/-- Prints what a command has to print at its end. What keeps it from being printed leaves the program. -/
def printed [Services] (ending : Ending) : Except Failure Ending :=
  match Services.printObstacle ending.streams.out ending.streams.err with
  | some e => .error (.obstacle e)
  | none => .ok ending

/-- Runs an invocation. -/
def runInvocation [Services] (system : System) : Invocation → Except Failure Outcome
  | .help command => .ok ⟨0, { out := helpText command }, system.tree⟩
  | .version => .ok ⟨0, { out := versionText }, system.tree⟩
  | .refused program fault =>
    .ok ⟨2, { err := program ++ ": error: " ++ fault.message ++ "\n" }, system.tree⟩
  | .run verbose request =>
    let execution := execute system request
    let log := logStreams verbose (.commandStarted request.command.name :: execution.events)
    (execution.ending.bind printed).map fun ending =>
      ⟨ending.exitCode, log ++ ending.streams, execution.tree⟩

/-- Runs a command line. -/
def run [Services] (system : System) (arguments : List String) : Except Failure Outcome :=
  runInvocation system (.ofArguments arguments)

end ComponentTags.CommandLine
