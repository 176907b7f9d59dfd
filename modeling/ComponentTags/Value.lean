import ComponentTags.Assoc
import ComponentTags.Value.Key

/-!
# Values

The data of settings files, environment settings and JSON documents. Objects keep the order of their
keys. `Value.display` is the form in which messages show a value.
-/

namespace ComponentTags

inductive Value where
  | null
  | bool (b : Bool)
  | int (n : Int)
  | float (x : Float)
  | text (s : String)
  | moment (m : Moment)
  | list (items : List Value)
  | object (fields : List (Key × Value))
  deriving Inhabited, Repr

/-- The fields of an object in the order of their keys. -/
abbrev Fields := Assoc Key Value

instance : Coe String Value := ⟨.text⟩

namespace Value

/-- An object whose keys are texts. -/
def record (fields : Assoc String Value) : Value :=
  object (fields.map fun (name, v) => (.text name, v))

/-- The fields of an object; any other value has none. -/
def fields : Value → Fields
  | object fields => fields
  | _ => []

/-- The value of a field of an object. -/
def get? (v : Value) (key : Key) : Option Value :=
  Assoc.get? v.fields key

def isObject : Value → Bool
  | object _ => true
  | _ => false

/-- The value at a path of keys, each naming a field of the object before it. -/
def atPath? (v : Value) : List Key → Option Value
  | [] => some v
  | key :: path =>
    match v.get? key with
    | some inner => inner.atPath? path
    | none => none

@[simp]
theorem atPath?_nil (v : Value) : v.atPath? [] = some v :=
  rfl

theorem atPath?_cons (v : Value) (key : Key) (path : List Key) :
    v.atPath? (key :: path) = (v.get? key).bind (·.atPath? path) := by
  rw [atPath?]
  cases v.get? key <;> rfl

/-- Whether a value counts as set: null, false, zero and everything empty do not. -/
def isSet : Value → Bool
  | null => false
  | bool b => b
  | int n => n != 0
  | float x => !(x == 0.0)
  | text s => s != ""
  | moment _ => true
  | list items => !items.isEmpty
  | object fields => !fields.isEmpty

/-- A value that is not null. -/
def unlessNull : Value → Option Value
  | null => none
  | v => some v

/-- The name of the kind of a value. -/
def kindName : Value → String
  | null => "NoneType"
  | bool _ => "bool"
  | int _ => "int"
  | float _ => "float"
  | text _ => "str"
  | moment m => if m.clock.isSome then "datetime" else "date"
  | list _ => "list"
  | object _ => "dict"

/-- The name of the kind of a value behind the name of the family that the kind belongs to, if it belongs
to one. -/
def fullKindName : Value → String
  | moment m => "datetime." ++ (moment m).kindName
  | v => v.kindName

mutual

/-- The form in which a message shows a value: texts in quotes, lists in brackets, objects in braces. -/
def display : Value → String
  | null => "None"
  | bool true => "True"
  | bool false => "False"
  | int n => Decimal.intText n
  | float x => Decimal.floatText x
  | text s => Text.quoted s
  | moment m => m.display
  | list items => "[" ++ displayItems items ++ "]"
  | object fields => "\x7b" ++ displayFields fields ++ "\x7d"

def displayItems : List Value → String
  | [] => ""
  | [v] => v.display
  | v :: rest => v.display ++ ", " ++ displayItems rest

def displayFields : List (Key × Value) → String
  | [] => ""
  | [(key, v)] => key.display ++ ": " ++ v.display
  | (key, v) :: rest => key.display ++ ": " ++ v.display ++ ", " ++ displayFields rest

end

/-- The form in which a value stands inside running text: a text stands for itself. -/
def plain : Value → String
  | text s => s
  | moment m => m.text
  | v => v.display

/-- Whether a value is a given text. -/
def isText (v : Value) (s : String) : Bool :=
  match v with
  | text t => t == s
  | _ => false

/-- The value, or the empty text if it does not count as set. -/
def orEmpty (v : Value) : Value :=
  if v.isSet then v else .text ""

/-- The value that a key is. -/
def ofKey : Key → Value
  | .text s => text s
  | .null => null
  | .bool b => bool b
  | .int n => int n
  | .float bits => float (Float.ofBits bits)
  | .moment m => moment m

end Value

end ComponentTags
