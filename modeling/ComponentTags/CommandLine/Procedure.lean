import ComponentTags.CommandLine.Run
import ComponentTags.Steps

/-!
# Commands step by step

A command as a sequence of steps that read files, write them and print. Opening a file to write empties it, and
its content follows as far as nothing stands in the way. The log is printed where it comes up, a failure that is
caught undoes nothing, and what a command prints about its result comes last.
-/

namespace ComponentTags.CommandLine

/-- What a command has done: the files as it has left them, and what it has printed. -/
structure Effects where
  tree : FileTree
  streams : Streams := {}

/-- Steps of a command. -/
abbrev Procedure := Steps Effects

namespace Procedure

open Steps

def print (s : Streams) : Procedure Unit :=
  modify fun effects => { effects with streams := effects.streams ++ s }

/-- Carries out a logged computation and prints its log. -/
def follow {α : Type} (verbose : Bool) (x : Logged α) : Procedure α := do
  print (logStreams verbose x.events)
  check x.result

/-- Ends the steps with a failure, if there is one. -/
def raise (failure : Option Failure) : Procedure Unit :=
  check (Failure.raised failure)

/-- Opens a file and so empties it, and writes its content as far as nothing stands in the way. -/
def writeFile [Services] (path : Path) (content : Text.Bytes) : Procedure Unit := do
  raise ((Services.openObstacle path).map .obstacle)
  let opened ← check (((← get).tree.write path []).mapError .access)
  modify fun effects => { effects with tree := opened }
  let (first, failure) := written path content
  let after ← check ((opened.write path first).mapError .access)
  modify fun effects => { effects with tree := after }
  raise failure

/-- The steps up to the end of a command, or up to its failure. -/
def caught {α : Type} (x : Procedure α) : Procedure (Except Failure α) :=
  tryCatch (do return .ok (← x)) fun e => return .error e

/-- Prints what a command has to print at its end, unless something keeps it from that. -/
def conclude [Services] (s : Streams) : Procedure Unit := do
  raise ((Services.printObstacle s.out s.err).map .obstacle)
  print s

/-- Reports a failure, or lets it leave the program. -/
def report [Services] (isReported : Failure → Bool) (json : Bool) (code : String) (e : Failure) :
    Procedure Nat := do
  if isReported e then
    conclude (Printer.error ⟨json, .lines 2⟩ e.problem? e.message code)
    return 1
  else throw e

/-- What a command sees: the files as it has left them by now. -/
def seen (system : System) : Procedure System := do
  return { system with tree := (← get).tree }

/-- The steps that compile a template and write the output file. -/
def compileTemplate [Services] (system : System) (verbose : Bool) (source : String) (output : Option String)
    (shared : SharedOptions) : Procedure (String × Report) := do
  let fields ← follow verbose ((← seen system).settings shared)
  let compiler ← follow verbose (Settings.compiler fields shared.tagPrefix)
  let template ← check ((← seen system).template source)
  let (text, report) ← check ((compiler.compile (String.ofList template)).mapError .pattern)
  follow verbose (report.events.forM Logged.tell)
  if let some file := outputFile? output then writeFile (Path.ofString file) (Text.encodeUtf8 text)
  return (text, report)

end Procedure

open Procedure

/-- The steps of a request, up to its exit code. -/
def Request.perform [Services] (system : System) (verbose : Bool) : Request → Procedure Nat
  | .compile source output withReport shared => do
    match ← caught (Procedure.compileTemplate system verbose source output shared) with
    | .error e => report isReportedByCompile shared.json "compile_error" e
    | .ok (text, report) =>
      conclude (compilationStreams source output withReport shared.json text report)
      return 0
  | .components shared => do
    let listed := do
      let fields ← follow verbose ((← seen system).settings shared)
      follow verbose (Settings.registry fields shared.tagPrefix)
    match ← caught listed with
    | .error e => report isReportedByList shared.json "config_error" e
    | .ok r =>
      conclude (listStreams shared.json r)
      return 0

/-- The steps of a run. -/
def perform [Services] (system : System) (verbose : Bool) (request : Request) : Procedure Nat := do
  follow verbose (.tell (.commandStarted request.command.name))
  request.perform system verbose

end ComponentTags.CommandLine
