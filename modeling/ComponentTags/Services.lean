import ComponentTags.Failure
import ComponentTags.Shared

/-!
# Services

What the library relies on and does not do itself: a reader of documents, a checker of schemas, and a system that
may refuse what the files would allow. All that is said about settings and commands holds for whatever services.
-/

namespace ComponentTags

/-- Why there is no document: the text is malformed, or reading it breaks off with a failure. -/
inductive DocumentFault where
  | malformed
  | failure (e : Failure)

/-- What the library relies on. The system's obstacles are those that the files do not tell of, and the most levels
of JSON that can be read depend on the stack. -/
class Services where
  /-- The data of a document. -/
  readDocument : List Char → Except DocumentFault Shared
  /-- What a schema finds wrong with a value. -/
  issues : Settings.Schema → Value → Except Failure (List Settings.Issue)
  /-- How deep JSON may nest. -/
  jsonDepth : Nat
  /-- What keeps the system from telling whether something stands at a path. -/
  lookObstacle : Path → Option Obstacle
  /-- What keeps a file from being read. -/
  readObstacle : Path → Option Obstacle
  /-- What keeps a file from being opened to write. -/
  openObstacle : Path → Option Obstacle
  /-- How many bytes are written to a file that was opened, and what ends it there. -/
  writeObstacle : Path → Text.Bytes → Option (Nat × Obstacle)
  /-- What keeps texts from being printed to the standard output and the standard error stream. -/
  printObstacle : String → String → Option Obstacle

namespace Services

/-- What the checker finds nothing wrong with is admitted. -/
def RespectsSchemas [Services] : Prop :=
  ∀ (schema : Settings.Schema) (v : Value), issues schema v = .ok [] → schema.Admits v

/-- Whether something stands at a path. -/
def look [Services] (tree : FileTree) (path : Path) : Except Failure Bool :=
  match lookObstacle path with
  | some e => .error (.obstacle e)
  | none => .ok (tree.pathExists path)

/-- The bytes of a file. -/
def readFile [Services] (tree : FileTree) (path : Path) : Except Failure Text.Bytes :=
  match readObstacle path with
  | some e => .error (.obstacle e)
  | none => (tree.read path).mapError .access

end Services

end ComponentTags
