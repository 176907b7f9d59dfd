import ComponentTags.Settings.Session
import ComponentTags.Steps

/-!
# Sessions step by step

An action as a sequence of steps that read the session, write to it or end the action. A load lays one layer
after another over a draft and keeps it in its last step only. Where it ends before, the draft stays as it is
by then, with some layers and some variables. No action reads a draft that it has not begun itself, so that a
load that fails shows in no answer behind it.
-/

namespace ComponentTags.Settings

namespace Session

/-- A session at work, with a draft of its settings. -/
structure Work where
  session : Session
  draft : Draft

/-- Steps of a session, which leave the session and the draft as they are where they end. -/
abbrev Procedure := Steps Work

namespace Procedure

open Steps

def redraft (change : Draft → Draft) : Procedure Unit :=
  modify fun w => { w with draft := change w.draft }

/-- Writes variables to the draft, one after another. -/
def override [Services] : List (String × String) → Procedure Unit
  | [] => pure ()
  | (name, value) :: rest =>
    match Text.afterLiteral environmentMark.toList name.toList with
    | none => override rest
    | some marked => do
      let (path, v) ← check ((override? name marked value).mapError OverrideError.failure)
      redraft (·.writeAt path v)
      override rest

/-- Begins a draft with the layers of the project's settings files. -/
def layFiles [Services] (s : Session) : Procedure Unit := do
  redraft fun _ => .ofFields defaults
  match ← check (s.project.findFile s.tree) with
  | none => return
  | some path => do
    let fields ← check (readFile s.tree path)
    redraft (·.lay fields)

/-- Checks the draft. -/
def checkDraft [Services] : Procedure Unit := do
  check (validate (.object (← get).draft.values))

/-- Makes a draft of the settings of a session that keeps none. -/
def lay [Services] (s : Session) (checked : Bool) : Procedure Unit := do
  layFiles s
  override s.environment.sorted
  if checked then checkDraft

/-- Keeps what stands in the draft. -/
def keepDraft : Procedure Fields := do
  modify fun w => { w with session := { w.session with kept := some w.draft.values } }
  return (← get).draft.values

/-- Loads the settings of the session, unless it keeps some. -/
def load [Services] (checked : Bool) : Procedure Fields := do
  let s := (← get).session
  match s.kept with
  | some fields => return fields
  | none => do
    lay s checked
    keepDraft

/-- Loads the settings and reads the spelling of directives from them. -/
def spelling [Services] : Procedure Directive.Spelling := do
  let fields ← load true
  check ((Settings.spelling fields).mapError .shape)

/-- Registers the context component, if the settings of the context ask for it. -/
def addContext (context : Fields) (empty : Registry) (view : Value) : Procedure Registry :=
  if hasContext context then
    check (do (empty.addContext (← (viewText view).mapError .shape)).mapError .registration)
  else return empty

/-- Loads the settings and registers the components that they describe. The spelling is asked for apart. -/
def registry [Services] (otherPrefix : Option String) : Procedure Registry := do
  let fields ← load true
  let view := (← spelling).contextView
  let context ← check ((contextSettings fields).mapError .shape)
  let bare ← addContext context (.empty (tagPrefix fields otherPrefix) view) view
  let values ← check ((componentValues fields).mapError .shape)
  check (registerFrom bare 0 values).result

end Procedure

end Session

open Session

/-- The steps of an action. -/
def Action.perform [Services] : Action → Procedure Answer
  | .load checked => do return .settings (← Procedure.load checked)
  | .loadAnew checked => do
    let s := (← get).session
    -- The session that loads anew is lost, together with its draft.
    let anew : Work := ⟨.new s.project s.tree [], .ofFields []⟩
    return .settings (← Steps.check (Steps.given (Procedure.load checked anew)))
  | .findFile => do
    let s := (← get).session
    return .file (← Steps.check (s.project.findFile s.tree))
  | .fileSettings path => do
    let s := (← get).session
    return .settings (Shared.fieldValues (← Steps.check (readFile s.tree path)))
  | .spelling => do return .spelling (← Procedure.spelling)
  | .registry otherPrefix => do return .registry (← Procedure.registry otherPrefix)
  | .compile otherPrefix text => do
    let registry ← Procedure.registry otherPrefix
    let spelling ← Procedure.spelling
    let compiler := Compiler.ofRegistry registry none (some spelling)
    let (compiled, report) ← Steps.check ((compiler.compile text).mapError .pattern)
    return .compiled compiled report
  | .putFile path content => do
    modify fun w => { w with session := { w.session with tree := w.session.tree.put path content } }
    return .nothing
  | .removeFile path => do
    modify fun w => { w with session := { w.session with tree := w.session.tree.erase path } }
    return .nothing
  | .setVariable name value => do
    modify fun w =>
      { w with session := { w.session with environment := w.session.environment.insert name value } }
    return .nothing

end ComponentTags.Settings
