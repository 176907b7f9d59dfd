import ComponentTags.Services
import ComponentTags.Settings.Coercion
import ComponentTags.Shared.Draft
import ComponentTags.Text.Search

/-!
# Settings from the environment

A variable `BLADETAGS_CONTEXT__VIEW` overrides the setting at the path `context`, `view`. Variables
take effect in the order of their names, so a variable for an object comes before those for its
fields.
-/

namespace ComponentTags.Settings

abbrev Environment := Assoc String String

/-- What the names of overriding variables start with. -/
def environmentMark : String := "BLADETAGS_"

/-- The path that a variable overrides: its name without the mark, in small letters, split at double
underscores. The result is `none` for a name with an empty part. -/
def overridePath? (name : List Char) : Option (List Key) :=
  let parts := Text.splitOn ['_', '_'] name
  if parts.any (·.isEmpty) then none
  else some (parts.map fun part => .text (String.ofList (Text.lower part)))

/-- Why an overriding variable takes no effect. -/
inductive OverrideError where
  | malformedName (name : String)
  | numeral (e : Decimal.NumeralError)
  | tooDeep (c : Json.Container)
  deriving DecidableEq, Repr

/-- The failure that an override ends with. -/
def OverrideError.failure : OverrideError → Failure
  | malformedName name => .settings (.malformedVariable name)
  | numeral e => .numeral e
  | tooDeep c =>
    .obstacle (.foreign "RecursionError"
      ("maximum recursion depth exceeded while decoding a JSON " ++ c.name ++ " from a unicode string"))

/-- What lies too deep to be read in a variable that holds JSON. -/
def tooDeep? [Services] (text : String) : Option Json.Container :=
  let s := Text.strip text.toList
  if isBracketed s then Json.tooDeep? Services.jsonDepth s else none

/-- The path and the value of an overriding variable. -/
def override? [Services] (name : String) (rest : List Char) (value : String) :
    Except OverrideError (List Key × Value) :=
  match overridePath? rest with
  | none => .error (.malformedName name)
  | some path =>
    match tooDeep? value, coerce value with
    | some c, _ => .error (.tooDeep c)
    | none, .error e => .error (.numeral e)
    | none, .ok v => .ok (path, v)

/-- The settings after the variables that took effect, the names of those, in order, and the error that
stopped the others, if there was one. -/
structure Overridden (σ : Type) where
  fields : σ
  applied : List String
  error : Option OverrideError

/-- Applies variables one after another, those without the mark excepted. The first error ends it. -/
def applyVariables {σ : Type} [Services] (write : σ → List Key → Value → σ) (fields : σ) :
    List (String × String) → Overridden σ
  | [] => ⟨fields, [], none⟩
  | (name, value) :: rest =>
    match Text.afterLiteral environmentMark.toList name.toList with
    | none => applyVariables write fields rest
    | some marked =>
      match override? name marked value with
      | .error e => ⟨fields, [], some e⟩
      | .ok (path, v) =>
        let others := applyVariables write (write fields path v) rest
        { others with applied := name :: others.applied }

/-- The variables in the order of their names. -/
def Environment.sorted (environment : Environment) : List (String × String) :=
  environment.mergeSort fun a b => a.1 ≤ b.1

/-- Writes the overrides of an environment to a draft. -/
def override [Services] (draft : Draft) (environment : Environment) : Overridden Draft :=
  applyVariables Draft.writeAt draft environment.sorted

/-- Lays the overrides of an environment over settings in which no object is shared. -/
def applyEnvironment [Services] (fields : Fields) (environment : Environment) : Overridden Fields :=
  let overridden := override (.ofFields fields) environment
  ⟨overridden.fields.values, overridden.applied, overridden.error⟩

end ComponentTags.Settings
