import ComponentTags.CommandLine.Procedure
import ComponentTags.Proofs.FileWriting

/-!
# The steps of a command

The steps of a command do what the run of the command does at once. Files are written last of all that may fail
before the end, so that a failure finds the files as they were, apart from the file at which the writing broke off.
-/

namespace ComponentTags.CommandLine

theorem logStreams_nil (verbose : Bool) : logStreams verbose [] = {} := by
  cases verbose <;> rfl

theorem logStreams_append (verbose : Bool) (first later : List Event) :
    logStreams verbose (first ++ later) = logStreams verbose first ++ logStreams verbose later := by
  cases verbose with
  | false => rfl
  | true =>
    simp only [logStreams, if_true, List.map_append, Streams.append_eq, String.empty_append]
    rw [String.join_append]

namespace Procedure

open Steps

variable {α β γ : Type} {verbose : Bool} {tree : FileTree} {streams : Streams} {x : Procedure α}
  {next : α → Procedure β}

theorem check_bind_of_ok {r : Except Failure α} {a : α} (h : r = .ok a) (next : α → Procedure β) (effects : Effects) :
    (check r >>= next) effects = next a effects := by
  rw [h]
  rfl

theorem check_bind_of_error {r : Except Failure α} {e : Failure} (h : r = .error e) (next : α → Procedure β)
    (effects : Effects) : (check r >>= next) effects = .error e effects := by
  rw [h]
  rfl

/-- Opening a file that can be written and writing it are one. -/
theorem writeFile_eq [Services] (tree : FileTree) (streams : Streams) (path : Path) (content : Text.Bytes) :
    writeFile path content ⟨tree, streams⟩ =
      ended (Failure.raised (CommandLine.writeFile tree path content).failure)
        ⟨(CommandLine.writeFile tree path content).tree, streams⟩ := by
  unfold CommandLine.writeFile
  cases hobstacle : Services.openObstacle path with
  | some e =>
    have refused : Failure.raised ((Services.openObstacle path).map .obstacle) = .error (.obstacle e) := by
      rw [hobstacle]
      rfl
    exact check_bind_of_error refused _ _
  | none =>
    have unhindered : Failure.raised ((Services.openObstacle path).map .obstacle) = .ok () := by
      rw [hobstacle]
      rfl
    refine (check_bind_of_ok unhindered _ _).trans ?_
    cases hwritten : tree.write path (written path content).1 with
    | error e =>
      have hopened := FileTree.write_eq_error_of_write_eq_error hwritten []
      exact check_bind_of_error (congrArg (Except.mapError Failure.access) hopened) _ _
    | ok after =>
      obtain ⟨opened, hopened⟩ := FileTree.exists_write_of_write hwritten []
      have hrewritten := (FileTree.write_of_write hopened (written path content).1).trans hwritten
      refine (check_bind_of_ok (congrArg (Except.mapError Failure.access) hopened) _ _).trans ?_
      refine (check_bind_of_ok (congrArg (Except.mapError Failure.access) hrewritten) _ _).trans ?_
      exact check_eq _ _

/-- How steps end that print a log: as they end behind a result that was computed, or with the failure of the
computation and the files as they found them. -/
def endedWith (tree : FileTree) (streams : Streams) (ends : β → Except Failure α × FileTree) :
    Except Failure β → EStateM.Result Failure Effects α
  | .ok b => ended (ends b).1 ⟨(ends b).2, streams⟩
  | .error e => .error e ⟨tree, streams⟩

/-- Steps on files do what a logged computation does at once: they print its log, and end as it does or as they do
behind its result. -/
def Follows (verbose : Bool) (tree : FileTree) (x : Procedure α) (logged : Logged β)
    (ends : β → Except Failure α × FileTree) : Prop :=
  ∀ streams, x ⟨tree, streams⟩ =
    endedWith tree (streams ++ logStreams verbose logged.events) ends logged.result

theorem follows_follow (verbose : Bool) (tree : FileTree) (logged : Logged α) :
    Follows verbose tree (follow verbose logged) logged (.ok ·, tree) := by
  intro streams
  change check logged.result (Effects.mk tree (streams ++ logStreams verbose logged.events)) = _
  cases logged.result <;> rfl

theorem follows_of_ok {ends : β → Except Failure α × FileTree} {b : β}
    (h : ∀ streams, x ⟨tree, streams⟩ = ended (ends b).1 ⟨(ends b).2, streams⟩) :
    Follows verbose tree x (.silent (.ok b)) ends := by
  intro streams
  rw [Logged.silent, logStreams_nil, Streams.append_empty]
  exact h streams

theorem follows_of_error {ends : β → Except Failure α × FileTree} {e : Failure}
    (h : ∀ streams, x ⟨tree, streams⟩ = .error e ⟨tree, streams⟩) :
    Follows verbose tree x (.fail e) ends := by
  intro streams
  rw [Logged.fail, Logged.silent, logStreams_nil, Streams.append_empty]
  exact h streams

theorem follows_check (tree : FileTree) (r : Except Failure α) :
    Follows verbose tree (check r) (.silent r) (.ok ·, tree) := by
  cases r with
  | ok a => exact follows_of_ok fun _ => rfl
  | error e => exact follows_of_error fun _ => rfl

/-- Steps go on as the computation does. -/
theorem Follows.bind {logged : Logged α} {rest : α → Logged γ} {ends : γ → Except Failure β × FileTree}
    (h : Follows verbose tree x logged (.ok ·, tree))
    (hnext : ∀ a, Follows verbose tree (next a) (rest a) ends) :
    Follows verbose tree (x >>= next) (logged >>= rest) ends := by
  intro streams
  have hx := h streams
  cases hresult : logged.result with
  | error e =>
    rw [hresult] at hx
    rw [bind_of_error hx]
    simp only [Bind.bind, Logged.andThen, hresult]
    rfl
  | ok a =>
    rw [hresult] at hx
    rw [bind_of_ok hx, hnext a]
    simp only [Bind.bind, Logged.andThen, hresult, logStreams_append, Streams.append_assoc]

/-- What a command sees at first are the files that the run sees. -/
theorem Follows.seen_bind {system : System} {next : System → Procedure β} {logged : Logged γ}
    {ends : γ → Except Failure β × FileTree} (h : Follows verbose system.tree (next system) logged ends) :
    Follows verbose system.tree (seen system >>= next) logged ends :=
  fun streams => h streams

/-- How a compilation ends behind its text: the text goes to the output file, if there is one. -/
def deliveredEnd [Services] (tree : FileTree) (output : Option String) (compiled : String × Report) :
    Except Failure (String × Report) × FileTree :=
  let writing := deliver tree output compiled.1
  ((Failure.raised writing.failure).map fun _ => compiled, writing.tree)

/-- The steps that compile a template make its text and then deliver it. -/
theorem follows_compileTemplate [Services] (verbose : Bool) (system : System) (source : String)
    (output : Option String) (shared : SharedOptions) :
    Follows verbose system.tree (compileTemplate system verbose source output shared)
      (CommandLine.compileTemplate system source shared) (deliveredEnd system.tree output) := by
  refine .seen_bind (.bind (follows_follow _ _ _) fun fields => .bind (follows_follow _ _ _) fun compiler =>
    .seen_bind (.bind (follows_check _ _) fun template => ?_))
  cases compiler.compile (String.ofList template) with
  | error e => exact follows_of_error fun _ => rfl
  | ok result =>
    refine .bind (follows_follow _ _ _) fun _ => follows_of_ok fun streams => ?_
    unfold deliveredEnd deliver
    cases outputFile? output with
    | none => rfl
    | some file =>
      have steps := writeFile_eq system.tree streams (Path.ofString file) (Text.encodeUtf8 result.1)
      dsimp only
      cases hfailure : (CommandLine.writeFile system.tree (Path.ofString file) (Text.encodeUtf8 result.1)).failure with
      | some e =>
        rw [hfailure] at steps
        exact bind_of_error steps _
      | none =>
        rw [hfailure] at steps
        exact bind_of_ok steps _

theorem follows_listedRegistry [Services] (verbose : Bool) (system : System) (shared : SharedOptions) :
    Follows verbose system.tree
      (do
        let fields ← follow verbose ((← seen system).settings shared)
        follow verbose (Settings.registry fields shared.tagPrefix))
      (listedRegistry system shared) (.ok ·, system.tree) :=
  .seen_bind (.bind (follows_follow _ _ _) fun _ => follows_follow _ _ _)

/-! ## Ends of commands -/

theorem caught_of_ok {a : α} {effects after : Effects} (h : x effects = .ok a after) :
    caught x effects = .ok (.ok a) after := by
  have body : (do return .ok (← x) : Procedure (Except Failure α)) effects = .ok (.ok a) after :=
    bind_of_ok h _
  exact tryCatch_of_ok body _

theorem caught_of_error {e : Failure} {effects after : Effects} (h : x effects = .error e after) :
    caught x effects = .ok (.error e) after := by
  have body : (do return .ok (← x) : Procedure (Except Failure α)) effects = .error e after :=
    bind_of_error h _
  exact tryCatch_of_error body _

/-- How a command ends that prints something: what it prints is behind the log, unless something keeps it from
being printed. -/
def concluded [Services] (tree : FileTree) (streams : Streams) (ending : Except Failure Ending) :
    EStateM.Result Failure Effects Nat :=
  match ending.bind printed with
  | .ok ending => .ok ending.exitCode ⟨tree, streams ++ ending.streams⟩
  | .error e => .error e ⟨tree, streams⟩

theorem conclude_eq [Services] (tree : FileTree) (streams : Streams) (ending : Ending) :
    (do
      conclude ending.streams
      return ending.exitCode : Procedure Nat) ⟨tree, streams⟩ = concluded tree streams (.ok ending) := by
  rw [concluded, Except.bind, printed]
  cases hobstacle : Services.printObstacle ending.streams.out ending.streams.err with
  | some e =>
    have refused : conclude ending.streams ⟨tree, streams⟩ = .error (.obstacle e) ⟨tree, streams⟩ := by
      unfold conclude
      rw [hobstacle]
      rfl
    exact bind_of_error refused _
  | none =>
    have printed : conclude ending.streams ⟨tree, streams⟩ = .ok () ⟨tree, streams ++ ending.streams⟩ := by
      unfold conclude
      rw [hobstacle]
      rfl
    exact bind_of_ok printed _

theorem report_eq [Services] (isReported : Failure → Bool) (json : Bool) (code : String) (e : Failure)
    (tree : FileTree) (streams : Streams) :
    report isReported json code e ⟨tree, streams⟩ = concluded tree streams (failed isReported json code e) := by
  unfold report failed
  split
  · exact conclude_eq tree streams ⟨1, Printer.error ⟨json, .lines 2⟩ e.problem? e.message code⟩
  · rfl

end Procedure

open Procedure Steps

/-- The steps of a request do what it does at once. -/
theorem perform_request_eq [Services] (system : System) (verbose : Bool) (request : Request) (streams : Streams) :
    request.perform system verbose ⟨system.tree, streams⟩ =
      concluded (execute system request).tree
        (streams ++ logStreams verbose (execute system request).events) (execute system request).ending := by
  cases request with
  | compile source output withReport shared =>
    have steps := follows_compileTemplate verbose system source output shared streams
    cases hresult : (CommandLine.compileTemplate system source shared).result with
    | error e =>
      rw [hresult] at steps
      rw [execute_of_compile_error hresult]
      exact (bind_of_ok (caught_of_error steps) _).trans (report_eq ..)
    | ok compiled =>
      obtain ⟨text, report⟩ := compiled
      rw [hresult] at steps
      simp only [endedWith, deliveredEnd] at steps
      cases hfailure : (deliver system.tree output text).failure with
      | some e =>
        rw [hfailure] at steps
        rw [execute_of_deliver_error hresult hfailure]
        exact (bind_of_ok (caught_of_error steps) _).trans (report_eq ..)
      | none =>
        rw [hfailure] at steps
        rw [execute_of_deliver hresult hfailure]
        refine (bind_of_ok (caught_of_ok steps) _).trans ?_
        exact conclude_eq _ _ ⟨0, compilationStreams source output withReport shared.json text report⟩
  | components shared =>
    have steps := follows_listedRegistry verbose system shared streams
    cases hresult : (listedRegistry system shared).result with
    | error e =>
      rw [hresult] at steps
      rw [execute_of_list_error hresult]
      exact (bind_of_ok (caught_of_error steps) _).trans (report_eq ..)
    | ok r =>
      rw [hresult] at steps
      rw [execute_of_list hresult]
      refine (bind_of_ok (caught_of_ok steps) _).trans ?_
      exact conclude_eq _ _ ⟨0, listStreams shared.json r⟩

/-- The steps of a run do what the run does at once. A failure that leaves the program leaves the files as the
execution left them, and the log. -/
theorem perform_eq [Services] (system : System) (verbose : Bool) (request : Request) :
    perform system verbose request ⟨system.tree, {}⟩ =
      match runInvocation system (.run verbose request) with
      | .ok outcome => .ok outcome.exitCode ⟨outcome.tree, outcome.streams⟩
      | .error e => .error e ⟨(execute system request).tree,
          logStreams verbose (.commandStarted request.command.name :: (execute system request).events)⟩ := by
  let started := Event.commandStarted request.command.name
  have hlog : ({} : Streams) ++ logStreams verbose (Logged.tell started).events ++
      logStreams verbose (execute system request).events =
        logStreams verbose (started :: (execute system request).events) := by
    rw [Streams.empty_append, ← logStreams_append]
    rfl
  have hstarted := follows_follow verbose system.tree (.tell started) {}
  refine (bind_of_ok hstarted _).trans ((perform_request_eq system verbose request _).trans ?_)
  rw [hlog, runInvocation, concluded]
  cases (execute system request).ending.bind printed <;> rfl

end ComponentTags.CommandLine
