import ComponentTags.Value

/-!
# Reports

How many occurrences each stage replaced, component by component, in the order in which the
components were compiled.
-/

namespace ComponentTags

/-- Counts under the names of what was counted, in the order of their first record. -/
abbrev Tally := Assoc String Int

namespace Tally

/-- Adds to the count of a name. A name is listed from its first record on, even with a count of zero. -/
def record (t : Tally) (name : String) (count : Int) : Tally :=
  Assoc.insert t name ((Assoc.get? t name).getD 0 + count)

def total (t : Tally) : Int :=
  t.foldr (fun entry total => entry.2 + total) 0

/-- Adds all counts of another tally. -/
def addAll (t other : Tally) : Tally :=
  other.foldl (fun t entry => t.record entry.1 entry.2) t

/-- The tally as data. -/
def toValue (t : Tally) : Value :=
  .record (t.map fun (name, count) => (name, .int count))

end Tally

/-- What the compilation of one component replaced. -/
structure ComponentReport where
  tag : Value
  view : String
  tally : Tally

namespace ComponentReport

def total (r : ComponentReport) : Int :=
  r.tally.total

def toValue (r : ComponentReport) : Value :=
  .object [("tag", r.tag), ("view", .text r.view), ("rewrites", r.tally.toValue),
    ("total", .int r.total)]

end ComponentReport

structure Report where
  tagPrefix : Value
  components : List ComponentReport

namespace Report

def total (r : Report) : Int :=
  r.components.foldr (fun c total => c.total + total) 0

/-- The counts of all components with a tag, added up. -/
def tallyFor (r : Report) (tag : String) : Tally :=
  let same := r.components.filter fun c =>
    match c.tag with
    | .text s => s == tag
    | _ => false
  same.foldl (fun t c => t.addAll c.tally) []

def toValue (r : Report) : Value :=
  .object [("prefix", r.tagPrefix), ("total_rewrites", .int r.total),
    ("passes", .list (r.components.map (·.toValue)))]

end Report

end ComponentTags
