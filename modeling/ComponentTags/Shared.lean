import ComponentTags.Value.Overlay

/-!
# Values with shared objects

While settings are being made, an object may stand at several places, as an alias in a document has it, and what
is written to it at one place shows at all of them. Objects have numbers: an object that stands at several places
is repeated at each of them under one number. No object holds itself. `Shared.value` forgets the numbers.
-/

namespace ComponentTags

/-- A value without parts. -/
inductive Scalar where
  | null
  | bool (b : Bool)
  | int (n : Int)
  | float (x : Float)
  | text (s : String)
  | moment (m : Moment)

def Scalar.value : Scalar → Value
  | null => .null
  | bool b => .bool b
  | int n => .int n
  | float x => .float x
  | text s => .text s
  | moment m => .moment m

/-- A value whose objects have numbers. -/
inductive Shared where
  | scalar (v : Scalar)
  | list (items : List Shared)
  | object (number : Nat) (fields : List (Key × Shared))

namespace Shared

mutual

/-- The value without the numbers. -/
def value : Shared → Value
  | scalar v => v.value
  | list items => .list (itemValues items)
  | object _ fields => .object (fieldValues fields)

def itemValues : List Shared → List Value
  | [] => []
  | item :: items => item.value :: itemValues items

def fieldValues : List (Key × Shared) → Fields
  | [] => []
  | (key, v) :: fields => (key, v.value) :: fieldValues fields

end

theorem fieldValues_eq_map (fields : List (Key × Shared)) :
    fieldValues fields = fields.map fun field => (field.1, field.2.value) := by
  induction fields with
  | nil => rfl
  | cons field rest ih =>
    rw [fieldValues, ih]
    rfl

theorem get?_fieldValues (fields : Assoc Key Shared) (key : Key) :
    Assoc.get? (fieldValues fields) key = (fields.get? key).map value := by
  induction fields with
  | nil => rfl
  | cons field rest ih =>
    obtain ⟨k, v⟩ := field
    rw [fieldValues, Assoc.get?, Assoc.get?, ih]
    split <;> rfl

theorem fieldValues_insert (fields : Assoc Key Shared) (key : Key) (v : Shared) :
    fieldValues (fields.insert key v) = Assoc.insert (fieldValues fields) key v.value := by
  induction fields with
  | nil => rfl
  | cons field rest ih =>
    obtain ⟨k, x⟩ := field
    rw [Assoc.insert, fieldValues, Assoc.insert]
    split
    · rfl
    · rw [fieldValues, ih]

mutual

/-- The numbers of all objects, once for each place. -/
def numbers : Shared → List Nat
  | scalar _ => []
  | list items => itemNumbers items
  | object number fields => number :: fieldNumbers fields

def itemNumbers : List Shared → List Nat
  | [] => []
  | item :: items => item.numbers ++ itemNumbers items

def fieldNumbers : List (Key × Shared) → List Nat
  | [] => []
  | (_, v) :: fields => v.numbers ++ fieldNumbers fields

end

mutual

/-- The same value with other numbers. -/
def renumber (f : Nat → Nat) : Shared → Shared
  | scalar v => scalar v
  | list items => list (renumberItems f items)
  | object number fields => object (f number) (renumberFields f fields)

def renumberItems (f : Nat → Nat) : List Shared → List Shared
  | [] => []
  | item :: items => item.renumber f :: renumberItems f items

def renumberFields (f : Nat → Nat) : List (Key × Shared) → List (Key × Shared)
  | [] => []
  | (key, v) :: fields => (key, v.renumber f) :: renumberFields f fields

end

mutual

theorem value_renumber (f : Nat → Nat) : (v : Shared) → (v.renumber f).value = v.value
  | scalar _ => rfl
  | list items => congrArg Value.list (itemValues_renumber f items)
  | object _ fields => congrArg Value.object (fieldValues_renumber f fields)

theorem itemValues_renumber (f : Nat → Nat) :
    (items : List Shared) → itemValues (renumberItems f items) = itemValues items
  | [] => rfl
  | item :: items => by
    rw [renumberItems, itemValues, value_renumber, itemValues_renumber, itemValues]

theorem fieldValues_renumber (f : Nat → Nat) :
    (fields : List (Key × Shared)) → fieldValues (renumberFields f fields) = fieldValues fields
  | [] => rfl
  | (key, v) :: fields => by
    rw [renumberFields, fieldValues, value_renumber, fieldValues_renumber, fieldValues]

end

mutual

/-- A value in which every object is new and has a number of its own, from `next` on, and the next number that is
free. -/
def ofValue (next : Nat) : Value → Shared × Nat
  | .null => (scalar .null, next)
  | .bool b => (scalar (.bool b), next)
  | .int n => (scalar (.int n), next)
  | .float x => (scalar (.float x), next)
  | .text s => (scalar (.text s), next)
  | .moment m => (scalar (.moment m), next)
  | .list items =>
    let (items, last) := ofItems next items
    (list items, last)
  | .object fields =>
    let (fields, last) := ofFields (next + 1) fields
    (object next fields, last)

def ofItems (next : Nat) : List Value → List Shared × Nat
  | [] => ([], next)
  | v :: rest =>
    let (item, next) := ofValue next v
    let (items, last) := ofItems next rest
    (item :: items, last)

def ofFields (next : Nat) : List (Key × Value) → List (Key × Shared) × Nat
  | [] => ([], next)
  | (key, v) :: rest =>
    let (v, next) := ofValue next v
    let (fields, last) := ofFields next rest
    ((key, v) :: fields, last)

end

mutual

theorem value_ofValue (next : Nat) : (v : Value) → (ofValue next v).1.value = v
  | .null | .bool _ | .int _ | .float _ | .text _ | .moment _ => rfl
  | .list items => congrArg Value.list (itemValues_ofItems next items)
  | .object fields => congrArg Value.object (fieldValues_ofFields (next + 1) fields)

theorem itemValues_ofItems (next : Nat) : (items : List Value) → itemValues (ofItems next items).1 = items
  | [] => rfl
  | v :: rest => by
    rw [ofItems, itemValues, value_ofValue, itemValues_ofItems]

theorem fieldValues_ofFields (next : Nat) :
    (fields : List (Key × Value)) → fieldValues (ofFields next fields).1 = fields
  | [] => rfl
  | (key, v) :: rest => by
    rw [ofFields, fieldValues, value_ofValue, fieldValues_ofFields]

end

mutual

/-- `upper` laid over what the lower layer holds in its place. Where both layers hold an object there is a new one,
which takes the number of the lower one. -/
def overlay (lower : Option Shared) : Shared → Shared
  | object number upper =>
    match lower with
    | some (object own fields) => object own (overlayFields fields upper)
    | _ => object number upper
  | scalar v => scalar v
  | list items => list items

/-- The fields of an object with further fields laid over them, one after another. -/
def overlayFields (lower : Assoc Key Shared) : List (Key × Shared) → Assoc Key Shared
  | [] => lower
  | (key, upper) :: rest => overlayFields (lower.insert key (overlay (lower.get? key) upper)) rest

end

theorem overlay_scalar (lower : Option Value) (v : Scalar) : Value.overlay lower v.value = v.value := by
  cases v <;> rfl

mutual

/-- Values are laid over each other as if no object had a number. -/
theorem value_overlay (lower : Option Shared) :
    (upper : Shared) → (overlay lower upper).value = Value.overlay (lower.map value) upper.value
  | scalar v => (overlay_scalar _ v).symm
  | list _ => rfl
  | object _ upper =>
    match lower with
    | some (object _ fields) => congrArg Value.object (fieldValues_overlayFields fields upper)
    | none | some (list _) => rfl
    | some (scalar v) => by cases v <;> rfl

theorem fieldValues_overlayFields (lower : Assoc Key Shared) :
    (upper : List (Key × Shared)) →
      fieldValues (overlayFields lower upper) = Value.overlayFields (fieldValues lower) (fieldValues upper)
  | [] => rfl
  | (key, upper) :: rest => by
    rw [overlayFields, fieldValues_overlayFields, fieldValues_insert, value_overlay, ← get?_fieldValues]
    rfl

end

mutual

/-- Writes a field of the object with the number `target`, wherever it stands. -/
def setField (target : Nat) (key : Key) (v : Shared) : Shared → Shared
  | scalar x => scalar x
  | list items => list (setFieldItems target key v items)
  | object number fields =>
    let fields := setFieldFields target key v fields
    object number (if number = target then Assoc.insert fields key v else fields)

def setFieldItems (target : Nat) (key : Key) (v : Shared) : List Shared → List Shared
  | [] => []
  | item :: items => setField target key v item :: setFieldItems target key v items

def setFieldFields (target : Nat) (key : Key) (v : Shared) : List (Key × Shared) → List (Key × Shared)
  | [] => []
  | (k, x) :: fields => (k, setField target key v x) :: setFieldFields target key v fields

end

end Shared

end ComponentTags
