import ComponentTags.CommandLine.Run
import ComponentTags.Proofs.GarbledSettings
import ComponentTags.Proofs.ValidBuilding

/-!
# Reported failures

A command that fails reports the failure and exits with 1. What leaves the program instead are garbled settings,
of which `compile` reports a file that is no text and whatever the system refuses, and what keeps files from being
read or written or texts from being printed for another reason than that the system refuses it. Everything else
that can fail behind the load is reported, since settings that were checked describe a registry or break off with
a problem of the library, and give a prefix that is a text.
-/

namespace ComponentTags

/-! ## Compilers from valid settings -/

namespace Settings

variable {fields : Fields} {otherPrefix : Option String} {compiler : Compiler} {e : Failure}

end Settings

namespace CommandLine

/-! ## Commands -/

/-- The options that a request shares with all others. -/
def Request.shared : Request → SharedOptions
  | compile _ _ _ shared => shared
  | components shared => shared

/-- Whether a request's command reports a failure. -/
def Request.reports : Request → Failure → Bool
  | compile .. => isReportedByCompile
  | components _ => isReportedByList

/-- The code under which a request's command reports failures that have none of their own. -/
def Request.failureCode : Request → String
  | compile .. => "compile_error"
  | components _ => "config_error"

/-- What a run writes about a failure that it reports. -/
def Request.report (request : Request) (e : Failure) : Streams :=
  Printer.error ⟨request.shared.json, .lines 2⟩ e.problem? e.message request.failureCode

section

variable [Services]

/-- The compiler that the settings of the project describe. -/
def System.compiler (system : System) (shared : SharedOptions) : Except Failure Compiler := do
  let fields ← (system.settings shared).result
  (Settings.compiler fields shared.tagPrefix).result

/-- The text that a template becomes under the settings of the project, and the report about it. -/
def System.compiled (system : System) (source : String) (shared : SharedOptions) :
    Except Failure (String × Report) := do
  let compiler ← system.compiler shared
  let template ← system.template source
  (compiler.compile (String.ofList template)).mapError .pattern

/-- Whether a request gets to its end, or what it fails with. -/
def Request.attempt (system : System) : Request → Except Failure Unit
  | compile source output _ shared => do
    let (text, _) ← system.compiled source shared
    Failure.raised (deliver system.tree output text).failure
  | components shared => (listedRegistry system shared).result.map fun _ => ()

variable {system : System} {source : String} {output : Option String} {shared : SharedOptions}
  {arguments : List String} {verbose : Bool} {request : Request} {outcome : Outcome} {fields : Fields}
  {e : Failure}

theorem compileTemplate_result (system : System) (source : String) (shared : SharedOptions) :
    (compileTemplate system source shared).result = system.compiled source shared := by
  simp only [compileTemplate, System.compiled, System.compiler, Logged.bind_result, bind_assoc]
  refine congrArg _ (funext fun _ => congrArg _ (funext fun compiler =>
    congrArg _ (funext fun template => ?_)))
  cases compiler.compile (String.ofList template) with
  | error found => rfl
  | ok result => exact Logged.bind_result_ok (Logged.forM_tell_result _) _

/-- A run of a request writes the log in front of what the request prints. -/
theorem run_eq (system : System) (h : Invocation.ofArguments arguments = .run verbose request) :
    run system arguments = ((execute system request).ending.bind printed).map fun ending =>
      ⟨ending.exitCode, logStreams verbose (.commandStarted request.command.name ::
        (execute system request).events) ++ ending.streams, (execute system request).tree⟩ := by
  rw [run, h, runInvocation]

/-- A run that returns has printed the end of its command. -/
theorem run_eq_ok (h : Invocation.ofArguments arguments = .run verbose request)
    (hrun : run system arguments = .ok outcome) :
    ∃ ending, (execute system request).ending = .ok ending ∧
      outcome = ⟨ending.exitCode, logStreams verbose (.commandStarted request.command.name ::
        (execute system request).events) ++ ending.streams, (execute system request).tree⟩ := by
  rw [run_eq system h] at hrun
  cases hending : (execute system request).ending with
  | error e =>
    rw [hending] at hrun
    cases hrun
  | ok ending =>
    rw [hending, Except.bind, printed] at hrun
    split at hrun
    · cases hrun
    · exact ⟨ending, rfl, (Except.ok.inj hrun).symm⟩

end

end CommandLine

end ComponentTags
