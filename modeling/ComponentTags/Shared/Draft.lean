import ComponentTags.Shared

/-!
# Drafts

An object that is being written to. Writing at a path goes from object to object: what stands on the way and is no
object gives way to a new one, and the last object gets the value. Objects are written to in place, so that the
value shows at every place where the last object stands.
-/

namespace ComponentTags

/-- An object, and the first of the numbers that are free for new objects. -/
structure Draft where
  number : Nat
  fields : Assoc Key Shared
  next : Nat

namespace Draft

/-- A draft in which every object is new. -/
def ofFields (fields : Fields) : Draft :=
  let (fields, next) := Shared.ofFields 1 fields
  ⟨0, fields, next⟩

/-- The fields of the object. -/
def values (d : Draft) : Fields :=
  Shared.fieldValues d.fields

@[simp]
theorem values_ofFields (fields : Fields) : (ofFields fields).values = fields :=
  Shared.fieldValues_ofFields 1 fields

/-- The numbers of the objects in a draft, once for each place. -/
def numbers (d : Draft) : List Nat :=
  d.number :: Shared.fieldNumbers d.fields

/-- A draft with fields of another origin laid over its own. Their objects get free numbers. An object that is laid
over is given up for a new one; a draft of the defaults has it at one place only. -/
def lay (d : Draft) (upper : List (Key × Shared)) : Draft :=
  let upper := Shared.renumberFields (d.next + ·) upper
  { d with
    fields := Shared.overlayFields d.fields upper
    next := (Shared.fieldNumbers upper).foldr (fun n next => max (n + 1) next) d.next }

/-- The values of a draft are laid over each other as those of settings are. -/
theorem values_lay (d : Draft) (upper : List (Key × Shared)) :
    (d.lay upper).values = Value.overlayFields d.values (Shared.fieldValues upper) := by
  rw [lay, values, Shared.fieldValues_overlayFields, Shared.fieldValues_renumber, values]

/-- Writes a field of the object with the number `target`. -/
def set (d : Draft) (target : Nat) (key : Key) (v : Shared) : Draft :=
  let fields := Shared.setFieldFields target key v d.fields
  { d with fields := if d.number = target then Assoc.insert fields key v else fields }

/-- Writes a value whose objects are new to a field. -/
def setNew (d : Draft) (target : Nat) (key : Key) (v : Value) : Draft :=
  let (v, next) := Shared.ofValue d.next v
  { d.set target key v with next }

/-- Writes a value at a path below the object with the number `target`, which has the given fields. -/
def writeFrom (d : Draft) (target : Nat) (fields : Assoc Key Shared) (path : List Key) (v : Value) : Draft :=
  match path with
  | [] => d
  | [key] => d.setNew target key v
  | key :: path =>
    match fields.get? key with
    | some (.object number inner) => d.writeFrom number inner path v
    | _ => (d.setNew target key (.object [])).writeFrom d.next [] path v

/-- Writes a value at a path. -/
def writeAt (d : Draft) (path : List Key) (v : Value) : Draft :=
  d.writeFrom d.number d.fields path v

end Draft

end ComponentTags
