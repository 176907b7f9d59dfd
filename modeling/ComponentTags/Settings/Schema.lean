import ComponentTags.Value

/-!
# Schemas

A schema says which values are admitted: values of some kinds, lists of items, and records that have no fields but
the listed ones. Three readings of it stand side by side: as a predicate, as a checker that lists what is wrong
with a value, and as a schema document for other tools. An issue has the path from the checked value to the faulty
part. Only the wrong kind of a value is reported about a value of a wrong kind.
-/

namespace ComponentTags.Settings

/-- A fault and the path to it; list positions are written in digits. -/
structure Issue where
  path : List String
  message : String
  deriving DecidableEq, Repr

namespace Issue

/-- The issue as a line of text. -/
def line (issue : Issue) : String :=
  let place := if issue.path.isEmpty then "<root>" else ".".intercalate issue.path
  place ++ ": " ++ issue.message

/-- Whether a path comes before another one or is the same: the first parts that differ decide, and a path
comes before those that go on from it. -/
def pathLe : List String → List String → Bool
  | [], _ => true
  | _ :: _, [] => false
  | a :: p, b :: q => if a = b then pathLe p q else a ≤ b

/-- Issues in the order of their paths; issues of one path stay in their order. -/
def sorted (issues : List Issue) : List Issue :=
  issues.mergeSort fun a b => pathLe a.path b.path

/-- The issue seen from the value around it. -/
def under (key : String) (issue : Issue) : Issue :=
  { issue with path := key :: issue.path }

end Issue

/-- The kinds of values that a schema can ask for. -/
inductive Kind where
  | text | bool | list | object | null
  deriving DecidableEq, Repr

namespace Kind

def name : Kind → String
  | text => "string"
  | bool => "boolean"
  | list => "array"
  | object => "object"
  | null => "null"

/-- Whether a value is of a kind. -/
def accepts : Kind → Value → Bool
  | text, .text _ => true
  | bool, .bool _ => true
  | list, .list _ => true
  | object, .object _ => true
  | null, .null => true
  | _, _ => false

/-- The value is of one of the kinds. -/
def issues (kinds : List Kind) (v : Value) : List Issue :=
  if kinds.any (·.accepts v) then []
  else
    let names := ", ".intercalate (kinds.map fun kind => Text.quoted kind.name)
    [⟨[], v.display ++ " is not of type " ++ names⟩]

end Kind

/-- What is admitted: values of one of some kinds, where texts have some characters at least; lists of admitted
items; or records with the listed fields, some of which must be there. -/
inductive Schema where
  | atom (kinds : List Kind) (minLength : Nat)
  | list (items : Schema)
  | record (required : List String) (properties : List (String × Schema))

namespace Schema

/-! ## Admitted values -/

mutual

/-- The schema admits the value. -/
def Admits : Schema → Value → Prop
  | atom kinds minLength, v =>
    (∃ kind ∈ kinds, kind.accepts v = true) ∧ ∀ s, v = .text s → minLength ≤ s.length
  | list items, v => ∃ values, v = .list values ∧ ∀ item ∈ values, items.Admits item
  | record required properties, v =>
    ∃ fields, v = .object fields ∧
      (∀ key ∈ Assoc.keys fields, ∃ name ∈ properties.map (·.1), key = .text name) ∧
      (∀ name ∈ required, ∃ inner, Assoc.get? fields (.text name) = some inner) ∧
      AdmitsFields fields properties

/-- The properties admit the fields of an object that stand under their names. -/
def AdmitsFields (fields : Fields) : List (String × Schema) → Prop
  | [] => True
  | (name, property) :: rest =>
    (∀ inner, Assoc.get? fields (.text name) = some inner → property.Admits inner) ∧
      AdmitsFields fields rest

end

/-! ## Issues -/

/-- A text is long enough. -/
def shortIssues (minLength : Nat) : Value → List Issue
  | .text s =>
    if minLength ≤ s.length then []
    else if minLength = 1 then [⟨[], Text.quoted s ++ " should be non-empty"⟩]
    else [⟨[], Text.quoted s ++ " is too short"⟩]
  | _ => []

/-- An object has no fields but those listed. -/
def unknownIssues (known : List String) (v : Value) : List Issue :=
  let isKnown (key : Key) := known.any fun name => key = .text name
  match (v.fields.keys.filter (!isKnown ·)).mergeSort fun a b => a.plain ≤ b.plain with
  | [] => []
  | unknown =>
    let verb := if unknown.length = 1 then " was" else " were"
    [⟨[], "Additional properties are not allowed (" ++
      ", ".intercalate (unknown.map Key.display) ++ verb ++ " unexpected)"⟩]

/-- An object has a field. -/
def missingIssues (v : Value) (name : String) : List Issue :=
  if v.isObject && (v.get? name).isNone then [⟨[], Text.quoted name ++ " is a required property"⟩]
  else []

/-- The issues of items of which the first has the given position. -/
def itemIssues (check : Value → List Issue) (position : Nat) : List Value → List Issue
  | [] => []
  | v :: rest =>
    (check v).map (·.under (Decimal.natText position)) ++ itemIssues check (position + 1) rest

/-- The issue of the items of a list; another value has no items. -/
def listIssues (check : Value → List Issue) : Value → List Issue
  | .list values => itemIssues check 0 values
  | _ => []

mutual

/-- What is wrong with a value. -/
def issues : Schema → Value → List Issue
  | atom kinds minLength, v => Kind.issues kinds v ++ shortIssues minLength v
  | list items, v => Kind.issues [.list] v ++ listIssues items.issues v
  | record required properties, v =>
    Kind.issues [.object] v ++ unknownIssues (properties.map (·.1)) v ++
      required.flatMap (missingIssues v) ++ propertyIssues v properties

/-- What is wrong with the fields that stand under the names of properties. -/
def propertyIssues (v : Value) : List (String × Schema) → List Issue
  | [] => []
  | (name, property) :: rest =>
    (match v.get? name with
      | some inner => (property.issues inner).map (·.under name)
      | none => []) ++ propertyIssues v rest

end

/-! ## Documents -/

/-- The names of kinds, or the name of the only one. -/
def kindNames : List Kind → Value
  | [kind] => .text kind.name
  | kinds => .list (kinds.map fun kind => .text kind.name)

mutual

/-- The entries of the schema document. -/
def document : Schema → Fields
  | atom kinds minLength =>
    ("type", kindNames kinds) :: if minLength = 0 then [] else [("minLength", .int minLength)]
  | list items => [("type", .text "array"), ("items", .object items.document)]
  | record required properties =>
    let closed : Fields := [("type", .text "object"), ("additionalProperties", .bool false)]
    let needed : Fields := if required.isEmpty then [] else [("required", .list (required.map .text))]
    let inner : Fields := [("properties", .object (propertyDocuments properties))]
    closed ++ needed ++ inner

def propertyDocuments : List (String × Schema) → Fields
  | [] => []
  | (name, property) :: rest => (.text name, .object property.document) :: propertyDocuments rest

end

end Schema

end ComponentTags.Settings
