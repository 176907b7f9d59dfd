import ComponentTags.Component

/-!
# The component registry

Components in the order of their first registration, each under its tag, together with the prefix
that all tags share and the view that marks the context component. A tag that is registered again
keeps its place. Settings that nobody checked may give values that are no texts as prefix and as
context view.
-/

namespace ComponentTags

structure Registry where
  tagPrefix : Value
  contextView : Value
  entries : Assoc String Component

namespace Registry

/-- The registered components in order. -/
def components (r : Registry) : List Component :=
  r.entries.map (·.2)

/-- The registered tags in order. -/
def tags (r : Registry) : List String :=
  r.entries.keys

/-- The component of a tag. -/
def get? (r : Registry) (tag : String) : Option Component :=
  Assoc.get? r.entries tag

def contains (r : Registry) (tag : String) : Bool :=
  (r.get? tag).isSome

def size (r : Registry) : Nat :=
  r.entries.length

/-- Registers a component as it is, once its tag is checked. -/
def register (r : Registry) (c : Component) : Except RegistrationError Registry :=
  (validateTag c.tag (some c.view)).map fun tag => { r with entries := r.entries.insert tag c }

/-- Makes a component and registers it. -/
def add (r : Registry) (view : String) (tag : Option Value) (dataModel : Option Value) :
    Except RegistrationError (Registry × Component) :=
  match Component.make view tag dataModel with
  | .error e => .error e
  | .ok c => (r.register c).map fun r => (r, c)

/-- A component that is made has a tag that is accepted, so it is registered. -/
theorem add_of_make {r : Registry} {view : String} {tag dataModel : Option Value} {c : Component}
    (h : Component.make view tag dataModel = .ok c) :
    r.add view tag dataModel = .ok ({ r with entries := r.entries.insert c.tag.plain c }, c) := by
  obtain ⟨-, -, -, -, s, htag, hs⟩ := Component.make_eq_ok h
  have hplain : c.tag.plain = s := by simp [htag, Value.plain]
  simp [add, h, register, validateTag_eq_ok_iff.2 ⟨htag, hs⟩, Except.map, hplain]

theorem add_of_make_error {r : Registry} {view : String} {tag dataModel : Option Value}
    {e : RegistrationError} (h : Component.make view tag dataModel = .error e) :
    r.add view tag dataModel = .error e := by
  simp [add, h]

/-- Gives the component of a tag another data model, or none. -/
def setDataModel (r : Registry) (tag : String) (dataModel : Option Value) :
    Except RegistrationError (Registry × Component) :=
  match r.get? tag with
  | none => .error (.unknownTag tag)
  | some c =>
    let c := c.withDataModel dataModel
    .ok ({ r with entries := r.entries.insert tag c }, c)

/-- Changes the prefix; none stands for the empty one. -/
def setTagPrefix (r : Registry) (tagPrefix : Option String) : Registry :=
  { r with tagPrefix := .text (tagPrefix.getD "") }

/-- A registry without components. A prefix that does not count as set is the empty one. -/
def empty (tagPrefix contextView : Value) : Registry :=
  ⟨tagPrefix.orEmpty, contextView, []⟩

/-- Registers the context component with its view. -/
def addContext (r : Registry) (view : String) : Except RegistrationError Registry :=
  (r.add view (some (.text contextTag)) none).map (·.1)

/-- A new registry, which holds the context component if it is asked for. -/
def new (tagPrefix : Option String) (withContext : Bool) (contextView : String) :
    Except RegistrationError Registry :=
  let r := empty (.text (tagPrefix.getD "")) (.text contextView)
  if withContext then r.addContext contextView else .ok r

end Registry

end ComponentTags
