import ComponentTags.Problem
import ComponentTags.Text.Name
import ComponentTags.Text.Search

/-!
# Components

A component maps a tag to the view that renders it and, optionally, to a data model whose output
joins the view's arguments. A tag is a letter or underscore followed by tag characters; it is spliced
into the patterns that find a component's elements. One line feed may end a tag or a tag prefix.
-/

namespace ComponentTags

/-- A component record. The tag and the data model are kept as they were given: a record that was not
made by `Component.make` may carry no text at all as its tag. -/
structure Component where
  view : String
  tag : Value
  dataModel : Option Value
  deriving Inhabited

/-- The view that marks the context component unless another one is configured. -/
def defaultContextView : String := "bladex::context"

/-- The tag under which the context component is registered. -/
def contextTag : String := "context"

/-- The characters of tags and tag prefixes. -/
def isTagChar (c : Char) : Bool :=
  c.isAlphanum || c == '_' || c == '.' || c == ':' || c == '-'

/-- The characters that may start a tag. -/
def isTagStart (c : Char) : Bool :=
  c.isAlpha || c == '_'

/-- A text without the line feed that may end it. -/
def withoutFinalNewline (s : List Char) : List Char :=
  if s.getLast? = some '\n' then s.dropLast else s

/-- Whether a text is accepted as a tag. -/
def isTag (s : List Char) : Bool :=
  match withoutFinalNewline s with
  | [] => false
  | c :: rest => isTagStart c && rest.all isTagChar

/-- Whether a text is accepted as a tag prefix. -/
def isTagPrefix (s : List Char) : Bool :=
  (withoutFinalNewline s).all isTagChar

/-- The text of a value that is accepted as a tag. -/
def tagText? : Value → Option String
  | .text s => if isTag s.toList then some s else none
  | _ => none

/-- Why a component is not registered. -/
inductive RegistrationError where
  | emptyView
  | invalidTag (tag : Value) (view : Option String)
  | unknownTag (tag : String)

namespace RegistrationError

def message : RegistrationError → String
  | emptyView => "Component view must not be empty"
  | invalidTag tag _ =>
    "Invalid component tag " ++ tag.display ++
      ": tags must start with a letter or underscore and contain only letters, digits, " ++
      "'_', '.', ':' or '-'"
  | unknownTag tag => "No component registered for tag " ++ Text.quoted tag

def context : RegistrationError → Assoc String Value
  | emptyView => []
  | invalidTag tag view => [("tag", tag), ("view", (view.map Value.text).getD .null)]
  | unknownTag tag => [("tag", .text tag)]

def problem (e : RegistrationError) : Problem :=
  ⟨.registration, e.message, e.context⟩

end RegistrationError

/-- A tag after its check; `view` is the view that the message about a refused tag names. -/
def validateTag (tag : Value) (view : Option String) : Except RegistrationError String :=
  match tagText? tag with
  | some s => .ok s
  | none => .error (.invalidTag tag view)

theorem tagText?_eq_some_iff {tag : Value} {s : String} :
    tagText? tag = some s ↔ tag = .text s ∧ isTag s.toList = true := by
  cases tag with
  | text t =>
    simp only [tagText?, Option.ite_none_right_eq_some, Option.some.injEq, Value.text.injEq]
    constructor
    · rintro ⟨h, rfl⟩
      exact ⟨rfl, h⟩
    · rintro ⟨rfl, h⟩
      exact ⟨h, rfl⟩
  | null | bool | int | float | moment | list | object => simp [tagText?]

theorem validateTag_eq_ok_iff {tag : Value} {view : Option String} {s : String} :
    validateTag tag view = .ok s ↔ tag = .text s ∧ isTag s.toList = true := by
  rw [← tagText?_eq_some_iff, validateTag]
  split
  · rename_i t h
    simp [h]
  · rename_i h
    simp [h]

/-- The last segment of a view's path, behind its last `::` and its last point. -/
def lastSegment (view : List Char) : List Char :=
  let path := (Text.splitOn [':', ':'] view).getLastD []
  (Text.splitOn ['.'] path).getLastD []

namespace Component

/-- The tag of a view for which none is given: the last segment in kebab case. -/
def deriveTag (view : String) : String :=
  String.ofList (Text.kebabCase (lastSegment view.toList))

/-- A data model that is empty counts as none. -/
def modelOf (dataModel : Option Value) : Option Value :=
  dataModel.filter Value.isSet

/-- Makes a component from a view, whose outer blanks are dropped, and an optional tag. -/
def make (view : String) (tag : Option Value) (dataModel : Option Value) :
    Except RegistrationError Component :=
  match Text.strip view.toList with
  | [] => .error .emptyView
  | stripped =>
    let view := String.ofList stripped
    (validateTag (tag.getD (.text (deriveTag view))) (some view)).map fun tag =>
      ⟨view, .text tag, modelOf dataModel⟩

/-- A component that is made has a view without outer blanks and a tag that is accepted: the one that was
given or else the one of the view. -/
theorem make_eq_ok {view : String} {tag dataModel : Option Value} {c : Component}
    (h : make view tag dataModel = .ok c) :
    c.view = String.ofList (Text.strip view.toList) ∧ Text.strip view.toList ≠ [] ∧
      c.dataModel = modelOf dataModel ∧ c.tag = tag.getD (.text (deriveTag c.view)) ∧
      ∃ s, c.tag = .text s ∧ isTag s.toList = true := by
  unfold make at h
  split at h
  · cases h
  · rename_i hne
    cases hvalid : validateTag (tag.getD (.text (deriveTag (String.ofList (Text.strip view.toList)))))
        (some (String.ofList (Text.strip view.toList))) with
    | error e => simp [hvalid, Except.map] at h
    | ok s =>
      simp only [hvalid, Except.map, Except.ok.injEq] at h
      subst h
      obtain ⟨htag, hs⟩ := validateTag_eq_ok_iff.1 hvalid
      exact ⟨rfl, fun hnil => hne hnil, rfl, htag.symm, s, rfl, hs⟩

/-- Under a tag that is accepted, a component is made of every view that is not blank. -/
theorem make_of_isTag {tag : String} (htag : isTag tag.toList = true) (view : String) (dataModel : Option Value) :
    make view (some (.text tag)) dataModel =
      if Text.strip view.toList = [] then .error .emptyView
      else .ok ⟨String.ofList (Text.strip view.toList), .text tag, modelOf dataModel⟩ := by
  unfold make
  split
  · rename_i hstripped
    rw [if_pos hstripped]
  · rename_i hne
    rw [if_neg fun hnil => hne hnil]
    simp [validateTag_eq_ok_iff.2 ⟨rfl, htag⟩, Except.map]

/-- The component with another data model. -/
def withDataModel (c : Component) (dataModel : Option Value) : Component :=
  { c with dataModel := modelOf dataModel }

/-- The name of the component's element: the tag behind the prefix. -/
def element (c : Component) (tagPrefix : Value) : String :=
  tagPrefix.plain ++ c.tag.plain

/-- Whether the component marks the context under the given view. A context view that is no text is the
view of no component. -/
def isContext (c : Component) (contextView : Value) : Bool :=
  contextView.isText c.view

/-- The component as data. -/
def fields (c : Component) : Assoc String Value :=
  [("view", .text c.view), ("tag", c.tag), ("data_model", c.dataModel.getD .null)]

end Component

end ComponentTags
