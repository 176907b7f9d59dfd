import ComponentTags.Directive
import ComponentTags.Settings.Schema

/-!
# The settings of a project

The settings that hold if a project sets none, and the rules that settings must meet.
-/

namespace ComponentTags.Settings

/-- The settings of a project that sets none. -/
def defaults : Fields :=
  let spelling : Directive.Spelling := {}
  [("prefix", .text ""), ("components", .list []),
   ("context", .object [("enabled", .bool true), ("view", spelling.contextView),
     ("stack", spelling.contextStack)])]

namespace Schema

/-- A text that is not empty. -/
def label : Schema := .atom [.text] 1

/-- A component: a view and, optionally, a tag and a data model. -/
def component : Schema :=
  .record ["view"] [("view", label), ("tag", label), ("data_model", .atom [.text, .null] 0)]

/-- The context: whether it is registered, its view and its stack. -/
def context : Schema :=
  .record [] [("enabled", .atom [.bool] 0), ("view", label), ("stack", label)]

/-- The settings of a project. -/
def settings : Schema :=
  .record [] [("prefix", .atom [.text] 0), ("components", .list component), ("context", context)]

end Schema

/-- The rules as a schema document. -/
def schema : Value :=
  let head : Fields :=
    [("$schema", .text "https://json-schema.org/draft/2020-12/schema"),
     ("title", .text "bladetags configuration")]
  .object (head ++ Schema.settings.document)

end ComponentTags.Settings
