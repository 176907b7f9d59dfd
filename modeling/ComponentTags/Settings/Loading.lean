import ComponentTags.Log
import ComponentTags.Services.Usual
import ComponentTags.Settings.Environment
import ComponentTags.Settings.Rules

/-!
# Loading settings

The settings of a project come in layers: the defaults, the project's settings file and the environment,
each laid over the ones before. The file is the one that was asked for or else the first of two names in
the project's directory that is there. The layers make a draft, in which an object of the file may be shared; what
is loaded are its values.
-/

namespace ComponentTags.Settings

/-- Where a project is and which settings file was asked for. -/
structure Project where
  root : Path
  settingsFile : Option Path

namespace Project

/-- A project with the text of a path to its settings file; an empty text asks for none. -/
def ofText (root : Path) (settingsFile : Option String) : Project :=
  ⟨root, (settingsFile.filter (· != "")).map Path.ofString⟩

/-- Where a settings file is looked for if none was asked for. -/
def usualFiles (p : Project) : List Path :=
  ["bladetags.yaml", "bladetags.yml"].map fun name => p.root.join (Path.ofString name)

theorem usualFiles_eq (p : Project) :
    p.usualFiles = [p.root.join ⟨"", ["bladetags.yaml"]⟩, p.root.join ⟨"", ["bladetags.yml"]⟩] := by
  simp only [usualFiles, List.map, Path.ofString_of_name (s := "bladetags.yaml") rfl rfl rfl,
    Path.ofString_of_name (s := "bladetags.yml") rfl rfl rfl]

/-- The first path at which something stands. -/
def firstPresent [Services] (tree : FileTree) : List Path → Except Failure (Option Path)
  | [] => .ok none
  | path :: rest =>
    match Services.look tree path with
    | .error e => .error e
    | .ok true => .ok (some path)
    | .ok false => firstPresent tree rest

/-- The settings file of a project, if it has one. A file that was asked for must be there. -/
def findFile [Services] (p : Project) (tree : FileTree) : Except Failure (Option Path) :=
  match p.settingsFile with
  | some path =>
    match Services.look tree path with
    | .error e => .error e
    | .ok true => .ok (some path)
    | .ok false => .error (.settings (.fileNotFound path))
  | none => firstPresent tree p.usualFiles

end Project

/-- The fields of settings that may share objects. -/
abbrev SharedFields := List (Key × Shared)

/-- The settings that a text spells. An empty document sets nothing. -/
def readText [Services] (path : Path) (text : List Char) : Except Failure SharedFields :=
  match Services.readDocument text with
  | .error .malformed => .error (.settings (.malformedFile path))
  | .error (.failure e) => .error e
  | .ok (.scalar .null) => .ok []
  | .ok (.object _ fields) => .ok fields
  | .ok v => .error (.settings (.noObject path v.value))

/-- The failure of a settings file that cannot be read. -/
def unreadable (path : Path) (e : Failure) : Failure :=
  match e.refusal? with
  | some reason => .settings (.unreadable path reason)
  | none => e

/-- The settings in a file. -/
def readFile [Services] (tree : FileTree) (path : Path) : Except Failure SharedFields :=
  match Services.readFile tree path with
  | .error e => .error (unreadable path e)
  | .ok bytes =>
    match readTextFile bytes with
    | .error e => .error (.encoding e)
    | .ok text => readText path text

/-- Checks settings against the rules. -/
def validate [Services] (v : Value) : Except Failure Unit :=
  match Services.issues Schema.settings v with
  | .error e => .error e
  | .ok found =>
    match Issue.sorted found with
    | [] => .ok ()
    | issues => .error (.settings (.invalid issues))

/-- The layers of the project's settings files. -/
def loadFiles [Services] (tree : FileTree) (project : Project) : Logged Draft := do
  match ← .silent (project.findFile tree) with
  | none => return .ofFields defaults
  | some path =>
    .tell (.settingsFileRead path)
    let fields ← .silent (readFile tree path)
    return (Draft.ofFields defaults).lay fields

theorem loadFiles_of_findFile_eq_none [Services] {tree : FileTree} {project : Project}
    (h : project.findFile tree = .ok none) :
    loadFiles tree project = .silent (.ok (.ofFields defaults)) := by
  rw [loadFiles, h]
  rfl

/-- The files of a project with a settings file are read as that file is. -/
theorem loadFiles_of_findFile [Services] {tree : FileTree} {project : Project} {path : Path}
    (h : project.findFile tree = .ok (some path)) :
    (loadFiles tree project).result = (readFile tree path).map (Draft.ofFields defaults).lay := by
  rw [loadFiles, h]
  change Logged.result (Logged.tell (.settingsFileRead path) >>= fun _ =>
    Logged.silent (readFile tree path) >>= fun fields => pure ((Draft.ofFields defaults).lay fields)) = _
  cases readFile tree path <;> rfl

/-- What such a file sets lies over the defaults. -/
theorem values_of_findFile [Services] {tree : FileTree} {project : Project} {path : Path}
    (h : project.findFile tree = .ok (some path)) :
    (loadFiles tree project).result.map Draft.values =
      (readFile tree path).map fun fields => Value.overlayFields defaults (Shared.fieldValues fields) := by
  rw [loadFiles_of_findFile h]
  cases readFile tree path with
  | error e => rfl
  | ok fields => simp only [Except.map, Draft.values_lay, Draft.values_ofFields]

/-- A draft with the environment written to it. -/
def loadEnvironment [Services] (draft : Draft) (environment : Environment) : Logged Draft :=
  let overridden := override draft environment
  ⟨overridden.applied.map .variableApplied,
    match overridden.error with
    | none => .ok overridden.fields
    | some e => .error e.failure⟩

/-- Loads the settings of a project and checks them if asked to. -/
def load [Services] (tree : FileTree) (environment : Environment) (project : Project) (checked : Bool) :
    Logged Fields := do
  let draft ← loadEnvironment (← loadFiles tree project) environment
  if checked then .silent (validate (.object draft.values))
  return draft.values

end ComponentTags.Settings
