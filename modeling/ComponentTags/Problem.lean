import ComponentTags.Value

/-!
# Problems

What the library reports when it refuses its input: a kind, a message and the data that the message
speaks of. Each part of the library has causes of its own and turns them into problems.
-/

namespace ComponentTags

namespace Problem

inductive Kind where
  | general | pattern | registration | settings | stack
  deriving DecidableEq, Repr

/-- The name of a kind in machine-readable output. -/
def Kind.code : Kind → String
  | .general => "BladeTagsError"
  | .pattern => "PatternCompileError"
  | .registration => "ComponentRegistrationError"
  | .settings => "ConfigError"
  | .stack => "ContextStackError"

end Problem

structure Problem where
  kind : Problem.Kind
  message : String
  context : Assoc String Value

namespace Problem

/-- The problem as data. -/
def payload (p : Problem) : Assoc String Value :=
  [("message", .text p.message), ("code", .text p.kind.code), ("context", .record p.context)]

/-- Where a pattern could not be built, as far as it is known. -/
structure PatternSite where
  tag : Option Value
  view : Option Value
  tagPrefix : Option Value
  stage : Option Value

/-- The parts of a site under their names. -/
def PatternSite.entries (site : PatternSite) : Assoc String Value :=
  let part (name : String) (v : Option Value) : List (String × Value) :=
    match v with
    | none | some .null => []
    | some v => [(name, v)]
  part "tag" site.tag ++ part "view" site.view ++ part "prefix" site.tagPrefix ++
    part "stage" site.stage

/-- A problem with a pattern. What the context already says about the site is kept. -/
def ofPatternSite (message : String) (context : Assoc String Value) (site : PatternSite) : Problem :=
  let added := site.entries.filter fun entry => (Assoc.get? context entry.1).isNone
  ⟨.pattern, message, context ++ added⟩

end Problem

end ComponentTags
