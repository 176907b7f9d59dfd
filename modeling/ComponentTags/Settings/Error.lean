import ComponentTags.Component
import ComponentTags.FileTree
import ComponentTags.Settings.Schema

/-!
# Errors of settings

Why the settings of a project cannot be used: the problems that the project is told of, and wrong shapes,
which only settings that nobody checked can have.
-/

namespace ComponentTags.Settings

inductive Error where
  | fileNotFound (path : Path)
  | unreadable (path : Path) (reason : String)
  | malformedFile (path : Path)
  | noObject (path : Path) (found : Value)
  | malformedVariable (name : String)
  | invalid (issues : List Issue)
  | invalidComponent (index : Nat) (cause : RegistrationError)

namespace Error

def message : Error → String
  | fileNotFound path => "Config file not found: " ++ path.text
  | unreadable path reason => "Cannot read config file " ++ path.text ++ ": " ++ reason
  | malformedFile path => "Cannot read config file " ++ path.text ++ ": "
  | noObject path found =>
    "Config file " ++ path.text ++ " must contain a mapping, got " ++ found.kindName
  | malformedVariable name => "Malformed BLADETAGS_* key: " ++ Text.quoted name
  | invalid issues =>
    "Invalid bladetags configuration:\n  - " ++ "\n  - ".intercalate (issues.map (·.line))
  | invalidComponent index cause =>
    "Invalid component at components." ++ Decimal.natText index ++ ": " ++ cause.message

def context : Error → Assoc String Value
  | fileNotFound path | unreadable path _ | malformedFile path | noObject path _ =>
    [("path", .text path.text)]
  | malformedVariable name => [("key", .text name)]
  | invalid issues => [("issues", .list (issues.map fun issue => .text issue.line))]
  | invalidComponent index cause => ("index", .int index) :: cause.context

def problem (e : Error) : Problem :=
  ⟨.settings, e.message, e.context⟩

end Error

/-- A value that does not have the shape that its place in the settings asks for. -/
inductive ShapeError where
  | contextNoObject (found : Value)
  | componentsNoList (found : Value)
  | componentNoObject (found : Value)
  | componentWithoutView
  | viewNoText (found : Value)

/-- Each message speaks of what could not be done with the value. -/
def ShapeError.message : ShapeError → String
  | contextNoObject found => Text.quoted found.fullKindName ++ " object has no attribute 'get'"
  | componentsNoList found => Text.quoted found.fullKindName ++ " object is not iterable"
  | componentNoObject (.text _) => "string indices must be integers, not 'str'"
  | componentNoObject (.list _) => "list indices must be integers or slices, not str"
  | componentNoObject found => Text.quoted found.fullKindName ++ " object is not subscriptable"
  | componentWithoutView => Text.quoted "view"
  | viewNoText found => Text.quoted found.fullKindName ++ " object has no attribute 'strip'"

end ComponentTags.Settings
