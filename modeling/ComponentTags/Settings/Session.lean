import ComponentTags.Settings.Building

/-!
# Settings sessions

A session loads the settings of a project once: the first load that succeeds is kept, whether it was
checked or not, and everything built from settings builds on it. A load that fails is forgotten. Files
and variables may change between the actions of a session.
-/

namespace ComponentTags.Settings

/-- A project, what the session can see of the system, and the settings that it keeps. -/
structure Session where
  project : Project
  tree : FileTree
  environment : Environment
  kept : Option Fields

/-- What can be done in a session. -/
inductive Action where
  | load (checked : Bool)
  | loadAnew (checked : Bool)
  | findFile
  | fileSettings (path : Path)
  | spelling
  | registry (otherPrefix : Option String)
  | compile (otherPrefix : Option String) (text : String)
  | putFile (path : Path) (content : Text.Bytes)
  | removeFile (path : Path)
  | setVariable (name value : String)

/-- What an action answers. -/
inductive Answer where
  | nothing
  | settings (fields : Fields)
  | file (path : Option Path)
  | spelling (s : Directive.Spelling)
  | registry (r : Registry)
  | compiled (text : String) (report : Report)

namespace Session

def new (project : Project) (tree : FileTree) (environment : Environment) : Session :=
  ⟨project, tree, environment, none⟩

/-- The settings of the session: those it keeps or else those that a load gives. -/
def settings [Services] (s : Session) (checked : Bool) : Logged Fields :=
  match s.kept with
  | some fields => return fields
  | none => Settings.load s.tree s.environment s.project checked

/-- The session after settings were asked for. -/
def keep [Services] (s : Session) (checked : Bool) : Session :=
  match (s.settings checked).result with
  | .ok fields => { s with kept := some fields }
  | .error _ => s

/-- What is answered on the ground of checked settings. -/
def build [Services] (s : Session) (answer : Fields → Logged Answer) : Logged Answer := do
  answer (← s.settings true)

/-- The answer to an action. -/
def answer [Services] (s : Session) : Action → Logged Answer
  | .load checked => do return .settings (← s.settings checked)
  | .loadAnew checked => do return .settings (← Settings.load s.tree [] s.project checked)
  | .findFile => do return .file (← .silent (s.project.findFile s.tree))
  | .fileSettings path => do
      return .settings (Shared.fieldValues (← .silent (Settings.readFile s.tree path)))
  | .spelling => s.build fun fields => do
      return .spelling (← .silent ((Settings.spelling fields).mapError .shape))
  | .registry otherPrefix => s.build fun fields => do
      return .registry (← Settings.registry fields otherPrefix)
  | .compile otherPrefix text => s.build fun fields => do
      let compiler ← Settings.compiler fields otherPrefix
      match compiler.compile text with
      | .error e => .fail (.pattern e)
      | .ok (compiled, report) => return .compiled compiled report
  | .putFile .. | .removeFile .. | .setVariable .. => return .nothing

/-- The session after an action. -/
def after [Services] (s : Session) : Action → Session
  | .load checked => s.keep checked
  | .spelling | .registry _ | .compile .. => s.keep true
  | .putFile path content => { s with tree := s.tree.put path content }
  | .removeFile path => { s with tree := s.tree.erase path }
  | .setVariable name value => { s with environment := s.environment.insert name value }
  | .loadAnew _ | .findFile | .fileSettings _ => s

/-- The answers to actions that are done one after another. -/
def run [Services] (s : Session) : List Action → List (Except Failure Answer)
  | [] => []
  | action :: rest => (s.answer action).result :: (s.after action).run rest

end Session

end ComponentTags.Settings
