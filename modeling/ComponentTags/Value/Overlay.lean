import ComponentTags.Value

/-!
# Laying values over each other

Settings come in layers. Where both layers hold an object, the fields of the upper one are laid over
those of the lower one; any other value of the upper layer replaces what lies below, lists included.
-/

namespace ComponentTags.Value

mutual

/-- `upper` laid over what the lower layer holds in its place. -/
def overlay (lower : Option Value) : Value → Value
  | object upper =>
    match lower with
    | some (object fields) => object (overlayFields fields upper)
    | _ => object upper
  | null => null
  | bool b => bool b
  | int n => int n
  | float x => float x
  | text s => text s
  | moment m => moment m
  | list items => list items

/-- The fields of an object with further fields laid over them, one after another. -/
def overlayFields (lower : Fields) : List (Key × Value) → Fields
  | [] => lower
  | (key, upper) :: rest =>
    overlayFields (Assoc.insert lower key (overlay (Assoc.get? lower key) upper)) rest

end

end ComponentTags.Value
