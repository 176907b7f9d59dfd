import ComponentTags.Directive
import ComponentTags.Markup.Closing
import ComponentTags.Markup.Opening
import ComponentTags.Markup.SelfClosing
import ComponentTags.Markup.Slot

/-!
# Stages

A component is compiled in stages, each of which replaces all occurrences of one kind of markup by
directives: slots, which belong to no component, then the component's self-closing elements, its
opening tags and its closing tags. The last three look for the component's name, so they refuse a
tag or a prefix that is none.
-/

namespace ComponentTags

inductive Stage where
  | slot | selfClosing | opening | closing
  deriving DecidableEq, Repr

namespace Stage

/-- The stages of a compilation in their order. -/
def all : List Stage := [slot, selfClosing, opening, closing]

/-- The name of a stage in reports and messages. -/
def label : Stage → String
  | slot => "slot"
  | selfClosing => "self-closing"
  | opening => "opening"
  | closing => "closing"

end Stage

/-- What a stage needs to know: the component, the prefix of its tag and the spelling of directives. -/
structure Target where
  component : Component
  tagPrefix : Value
  spelling : Directive.Spelling

/-- Which part of a component's name is refused, and whether a prefix is refused for being no text. -/
inductive NameFault where
  | invalidTag | invalidPrefix | prefixNoText
  deriving DecidableEq, Repr

/-- A stage that cannot look for a component's name. -/
structure PatternError where
  fault : NameFault
  stage : Stage
  component : Component
  tagPrefix : Value

namespace PatternError

def message (e : PatternError) : String :=
  let start := "Cannot build " ++ e.stage.label ++ " pattern for component " ++
    Text.quoted e.component.view ++ ": "
  match e.fault with
  | .invalidTag => start ++ "invalid tag " ++ e.component.tag.display
  | .invalidPrefix => start ++ "invalid prefix " ++ e.tagPrefix.display
  | .prefixNoText =>
    "expected string or bytes-like object, got " ++ Text.quoted e.tagPrefix.fullKindName

def site (e : PatternError) : Problem.PatternSite :=
  ⟨some e.component.tag, some (.text e.component.view), some e.tagPrefix,
    some (.text e.stage.label)⟩

/-- The error as a problem of the library. A prefix that is no text is none, but a misuse. -/
def problem? (e : PatternError) : Option Problem :=
  match e.fault with
  | .invalidTag | .invalidPrefix => some (.ofPatternSite e.message [] e.site)
  | .prefixNoText => none

end PatternError

namespace Target

/-- Why the target's name is refused, if it is. The tag is looked at first. -/
def nameFault? (t : Target) : Option NameFault :=
  match tagText? t.component.tag, t.tagPrefix with
  | none, _ => some .invalidTag
  | some _, .text s => if isTagPrefix s.toList then none else some .invalidPrefix
  | some _, _ => some .prefixNoText

/-- The name that a stage looks for. -/
def name (t : Target) (stage : Stage) : Except PatternError (List Char) :=
  match t.nameFault? with
  | some fault => .error ⟨fault, stage, t.component, t.tagPrefix⟩
  | none => .ok (t.component.element t.tagPrefix).toList

/-- The text in place of a self-closing element with the given attribute text. -/
def elementText (t : Target) (attributes : List Char) : List Char :=
  (Directive.element t.spelling t.component (Attribute.parse attributes)).toList

/-- The text in place of an opening tag with the given attribute text. -/
def startText (t : Target) (attributes : List Char) : List Char :=
  (Directive.start t.spelling t.component (Attribute.parse attributes)).toList

/-- The text in place of a closing tag. -/
def finishText (t : Target) : List Char :=
  (Directive.finish t.spelling t.component).toList

end Target

namespace Stage

/-- Runs a stage on a text: the new text and the number of replacements. -/
def run (stage : Stage) (t : Target) (s : List Char) : Except PatternError (List Char × Nat) :=
  match stage with
  | slot =>
    .ok (Markup.slot.replace (fun found => Directive.slot found.name found.contents) s,
      Markup.slot.count s)
  | selfClosing =>
    (t.name stage).map fun name =>
      ((Markup.selfClosing name).replace t.elementText s, (Markup.selfClosing name).count s)
  | opening =>
    (t.name stage).map fun name =>
      ((Markup.opening name).replace t.startText s, (Markup.opening name).count s)
  | closing =>
    (t.name stage).map fun name =>
      ((Markup.closing name).replace (fun _ => t.finishText) s, (Markup.closing name).count s)

/-- The occurrences that a stage finds in a text, with their attribute text where there is one. The slot
stage is none of a component and finds nothing here. -/
def spans (stage : Stage) (t : Target) (s : List Char) :
    Except PatternError (List (Nat × Nat × Option (List Char))) :=
  match stage with
  | slot => .ok []
  | selfClosing =>
    (t.name stage).map fun name =>
      ((Markup.selfClosing name).spans s).map fun (first, last, text) => (first, last, some text)
  | opening =>
    (t.name stage).map fun name =>
      ((Markup.opening name).spans s).map fun (first, last, text) => (first, last, some text)
  | closing =>
    (t.name stage).map fun name =>
      ((Markup.closing name).spans s).map fun (first, last, _) => (first, last, none)

end Stage

end ComponentTags
