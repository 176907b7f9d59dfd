import ComponentTags.Compiler
import ComponentTags.Settings.Loading

/-!
# Building from settings

The spelling of directives, the registry and the compiler that settings describe. The settings need not
have been checked: a value of a wrong shape is a failure only where something is to be read out of it, and
is used as it is where it is only passed on. Values that do not count as set stand for missing ones where
a missing one has a meaning.
-/

namespace ComponentTags.Settings

/-- The settings of the context. -/
def contextSettings (fields : Fields) : Except ShapeError Fields :=
  match Assoc.get? fields "context" with
  | none => .ok []
  | some (.object context) => .ok context
  | some v => if v.isSet then .error (.contextNoObject v) else .ok []

/-- The spelling of directives that the settings of the context give. -/
def contextSpelling (context : Fields) : Directive.Spelling :=
  let usual : Directive.Spelling := {}
  ⟨(Assoc.get? context "view").getD usual.contextView,
    (Assoc.get? context "stack").getD usual.contextStack⟩

/-- The spelling of directives. -/
def spelling (fields : Fields) : Except ShapeError Directive.Spelling :=
  (contextSettings fields).map contextSpelling

/-- Whether the context component is registered. -/
def hasContext (context : Fields) : Bool :=
  ((Assoc.get? context "enabled").map Value.isSet).getD true

/-- The prefix of all tags, unless another one is given. -/
def tagPrefix (fields : Fields) (otherPrefix : Option String) : Value :=
  ((otherPrefix.map Value.text).or (Assoc.get? fields "prefix")).getD ""

/-- The text of a view. A value that does not count as set stands for the empty one. -/
def viewText : Value → Except ShapeError String
  | .text s => .ok s
  | v => if v.isSet then .error (.viewNoText v) else .ok ""

/-- The registry that settings describe, before any component is added to it. -/
def bareRegistry (fields : Fields) (otherPrefix : Option String) : Except Failure Registry := do
  let context ← (contextSettings fields).mapError .shape
  let view := (contextSpelling context).contextView
  let bare := Registry.empty (tagPrefix fields otherPrefix) view
  if hasContext context then
    (bare.addContext (← (viewText view).mapError .shape)).mapError .registration
  else return bare

/-- A component that settings describe. -/
structure Entry where
  view : String
  tag : Option Value
  dataModel : Option Value

/-- The description in a value. -/
def Entry.ofValue (v : Value) : Except ShapeError Entry :=
  match v with
  | .object fields =>
    match Assoc.get? fields "view" with
    | none => .error .componentWithoutView
    | some view =>
      let tag := (Assoc.get? fields "tag").bind Value.unlessNull
      (viewText view).map (⟨·, tag, Assoc.get? fields "data_model"⟩)
  | v => .error (.componentNoObject v)

/-- The values that describe components: the items of a list, or else the keys of an object or the
characters of a text. -/
def componentValues (fields : Fields) : Except ShapeError (List Value) :=
  match Assoc.get? fields "components" with
  | none => .ok []
  | some (.list items) => .ok items
  | some (.object inner) => .ok ((Assoc.keys inner).map Value.ofKey)
  | some (.text s) => .ok (s.toList.map fun c => .text (String.singleton c))
  | some v => if v.isSet then .error (.componentsNoList v) else .ok []

/-- Registers described components, of which the first one stands at the given position. -/
def registerFrom (registry : Registry) (position : Nat) : List Value → Logged Registry
  | [] => return registry
  | v :: rest =>
    match Entry.ofValue v with
    | .error e => .fail (.shape e)
    | .ok entry =>
      match registry.add entry.view entry.tag entry.dataModel with
      | .error cause => .fail (.settings (.invalidComponent position cause))
      | .ok (extended, component) => do
        if registry.contains component.tag.plain then
          .tell (.componentReplaced component.tag.plain component.view)
        registerFrom extended (position + 1) rest

/-- The registry that settings describe, with another prefix if one is given. -/
def registry (fields : Fields) (otherPrefix : Option String) : Logged Registry := do
  let bare ← .silent (bareRegistry fields otherPrefix)
  let values ← .silent ((componentValues fields).mapError .shape)
  registerFrom bare 0 values

/-- The compiler that settings describe. -/
def compiler (fields : Fields) (otherPrefix : Option String) : Logged Compiler := do
  let registry ← registry fields otherPrefix
  let spelling ← .silent ((spelling fields).mapError .shape)
  return .ofRegistry registry none (some spelling)

end ComponentTags.Settings
