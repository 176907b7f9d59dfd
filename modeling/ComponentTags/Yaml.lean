import ComponentTags.Yaml.Node
import ComponentTags.Yaml.Scalar

/-!
# Reading YAML

The value of a text with one document. A field that comes twice keeps its place and takes its last
value. A merge key `<<` lays the fields of a mapping, or of several, under those of the mapping that it
stands in. Sequences and mappings cannot be keys. A mapping that is referred to is one object at several places.
-/

namespace ComponentTags.Yaml

/-- A fault and its rank. Mappings and sequences are given their values level by level, and merge keys
are looked at before the other fields of a level; the fault of the lowest rank is the first one found. -/
structure RankedFault where
  rank : Nat
  fault : Fault
  deriving DecidableEq, Repr

/-- Puts two results together; of two faults the first one found counts. -/
def both {α β γ : Type} (f : α → β → γ) :
    Except RankedFault α → Except RankedFault β → Except RankedFault γ
  | .ok a, .ok b => .ok (f a b)
  | .ok _, .error e => .error e
  | .error e, .ok _ => .error e
  | .error e, .error e' => .error (if e'.rank < e.rank then e' else e)

/-- The rank of the fault of a merge key on a level. -/
def mergeRank (level : Nat) : Nat := 2 * level

/-- The rank of the other faults on a level. -/
def scalarRank (level : Nat) : Nat := 2 * level + 1

/-- Whether a node is a merge key. -/
def Node.isMergeKey : Node → Bool
  | .scalar plain text => plain && text == "<<"
  | _ => false

/-- The key that a scalar is. The sign `=` is a text as a key, though it stands for no value. -/
def keyOf (plain : Bool) (text : String) : Except Fault Key :=
  if !plain || text == "=" then .ok (.text text)
  else
    (plainValue text).map fun v =>
      match v with
      | .null => .null
      | .bool b => .bool b
      | .int n => .int n
      | .float x => .float x.toBits
      | .moment m => .moment m
      | .text s => .text s

/-- The key that a node on a level is. -/
def Node.key (level : Nat) : Node → Except RankedFault Key
  | .scalar plain text => (keyOf plain text).mapError (⟨scalarRank level, ·⟩)
  | .sequence _ | .mapping .. | .named .. | .reference _ => .error ⟨scalarRank level, .malformed⟩

/-- Writes a field. A key that is written again in another form stays as it is. -/
def writeField (fields : Assoc Key Shared) (field : Key × Shared) : Assoc Key Shared :=
  fields.insert ((fields.keys.find? (·.same field.1)).getD field.1) field.2

/-- The object of fields that may come more than once. -/
def objectOf (number : Nat) (fields : List (Key × Shared)) : Shared :=
  .object number (fields.foldl writeField [])

/-- The fields of a mapping, one after another. -/
abbrev FoundFields := Except RankedFault (List (Key × Shared))

mutual

/-- The value of a node on a level. -/
def Node.valueOn (level : Nat) : Node → Except RankedFault Shared
  | .scalar true text => ((plainValue text).map .scalar).mapError (⟨scalarRank level, ·⟩)
  | .scalar false text => .ok (.scalar (.text text))
  | .sequence items => (itemValues (level + 1) items).map .list
  | .mapping number entries =>
    let (merged, own) := entryFields (level + 1) entries
    (both (· ++ ·) merged own).map (objectOf number)
  | .named .. | .reference _ => .error ⟨scalarRank level, .malformed⟩

/-- The values of nodes on a level. -/
def itemValues (level : Nat) : List Node → Except RankedFault (List Shared)
  | [] => .ok []
  | item :: items => both (· :: ·) (item.valueOn level) (itemValues level items)

/-- The fields that the merge keys of entries add, and those of the other entries. -/
def entryFields (level : Nat) : List (Node × Node) → FoundFields × FoundFields
  | [] => (.ok [], .ok [])
  | (key, value) :: entries =>
    let (merged, own) := entryFields level entries
    if key.isMergeKey then (both (· ++ ·) (mergedFields level value) merged, own)
    else (merged, both (· :: ·) (both (·, ·) (key.key level) (value.valueOn level)) own)

/-- The fields that the value of a merge key adds: those of a mapping, or those of several. -/
def mergedFields (level : Nat) : Node → FoundFields
  | .scalar .. | .named .. | .reference _ => .error ⟨mergeRank level, .malformed⟩
  | .mapping _ entries =>
    let (merged, own) := entryFields level entries
    both (· ++ ·) merged own
  | .sequence items => mergedItems level items

/-- The fields of several mappings, those of the last one first, so that the first one counts most. -/
def mergedItems (level : Nat) : List Node → FoundFields
  | [] => .ok []
  | .mapping _ entries :: items =>
    let (merged, own) := entryFields level entries
    both (· ++ ·) (mergedItems level items) (both (· ++ ·) merged own)
  | _ :: _ => .error ⟨mergeRank level, .malformed⟩

end

/-- The value of a node. -/
def Node.value (node : Node) : Except Fault Shared :=
  (node.valueOn 0).mapError (·.fault)

/-- The value of a text. -/
def read (s : List Char) : Except Fault Shared :=
  (Node.ofTokens (tokens s)).bind Node.value

end ComponentTags.Yaml
