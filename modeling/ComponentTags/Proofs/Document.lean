import ComponentTags.Compiler
import ComponentTags.Proofs.Compilation

/-!
# Documents

A document is a template with a structure: text, self-closing elements, paired elements and slots, the
latter two with documents inside. A rendering says how the tags of a document are written, so one document
has a source, in which all of them are tags, and a translation, in which all of them are directives.
-/

namespace ComponentTags

/-- An attribute as it is written in a tag: a name, perhaps with a value in double quotes. -/
structure TagAttribute where
  name : List Char
  value : Option (List Char)
  named : name ≠ []
  nameChars : ∀ c ∈ name, Attribute.isNameChar c = true
  plain : ∀ v, value = some v → ∀ c ∈ v, c ≠ '"' ∧ c ≠ '<' ∧ c ≠ '>' ∧ c ≠ '\n'

namespace TagAttribute

theorem plain_of_none : ∀ v, (none : Option (List Char)) = some v →
    ∀ c ∈ v, c ≠ '"' ∧ c ≠ '<' ∧ c ≠ '>' ∧ c ≠ '\n' := by
  rintro v ⟨⟩

/-- The text of an attribute. -/
def text (a : TagAttribute) : List Char :=
  match a.value with
  | none => a.name
  | some v => a.name ++ '=' :: '"' :: (v ++ ['"'])

/-- The text of attributes, each behind a space. -/
def listText (attributes : List TagAttribute) : List Char :=
  attributes.flatMap fun a => ' ' :: a.text

/-- No value is written. -/
def Bare (attributes : List TagAttribute) : Prop :=
  ∀ a ∈ attributes, a.value = none

/-- A name without value does not end a tag with a hyphen. -/
def EndsOpenly (attributes : List TagAttribute) : Prop :=
  ∀ a, attributes.getLast? = some a → a.value = none → a.name.getLast? ≠ some '-'

variable {a : TagAttribute} {attributes : List TagAttribute} {x : Char}

/-- An attribute has no end of a tag or a line in it. -/
theorem not_mem_text (hname : Attribute.isNameChar x = false) (hmark : x ≠ '=' ∧ x ≠ '"')
    (hvalue : ∀ v, a.value = some v → x ∉ v) : x ∉ a.text := by
  have notName : x ∉ a.name := by
    intro hmem
    rw [a.nameChars x hmem] at hname
    cases hname
  unfold text
  split
  · exact notName
  · rename_i v hv
    simp [notName, hmark, hvalue v hv]

theorem not_mem_listText (hname : Attribute.isNameChar x = false)
    (hmark : x ≠ '=' ∧ x ≠ '"' ∧ x ≠ ' ') (hvalue : ∀ a ∈ attributes, ∀ v, a.value = some v → x ∉ v) :
    x ∉ listText attributes := by
  intro hmem
  obtain ⟨a, ha, hmem⟩ := List.mem_flatMap.1 hmem
  rcases List.mem_cons.1 hmem with heq | hmem
  · exact hmark.2.2 heq
  · exact not_mem_text hname ⟨hmark.1, hmark.2.1⟩ (hvalue a ha) hmem

theorem tagless_listText (attributes : List TagAttribute) : '<' ∉ listText attributes :=
  not_mem_listText (by decide) (by decide) fun a _ v hv hmem => (a.plain v hv _ hmem).2.1 rfl

theorem endless_listText (attributes : List TagAttribute) : '>' ∉ listText attributes :=
  not_mem_listText (by decide) (by decide) fun a _ v hv hmem => (a.plain v hv _ hmem).2.2.1 rfl

theorem feedless_listText (attributes : List TagAttribute) : '\n' ∉ listText attributes :=
  not_mem_listText (by decide) (by decide) fun a _ v hv hmem => (a.plain v hv _ hmem).2.2.2 rfl

/-- Attributes are empty or start with a space. -/
theorem endsName_listText_append {s : List Char} (attributes : List TagAttribute)
    (h : Markup.endsName s = true) : Markup.endsName (listText attributes ++ s) = true := by
  cases attributes with
  | nil => exact h
  | cons a rest => rfl

end TagAttribute

/-- The name of a slot: it holds no quotes and no end of a tag. -/
def IsSlotName (name : List Char) : Prop :=
  ∀ c ∈ name, c ≠ '"' ∧ c ≠ '\'' ∧ c ≠ '<' ∧ c ≠ '>'

instance (name : List Char) : Decidable (IsSlotName name) :=
  List.decidableBAll (fun c => c ≠ '"' ∧ c ≠ '\'' ∧ c ≠ '<' ∧ c ≠ '>') name

/-- A document: its first piece, with what is inside it, and the pieces that follow. -/
inductive Document where
  | nil
  | text (s : List Char) (tagless : '<' ∉ s) (rest : Document)
  | void (c : Component) (attributes : List TagAttribute) (rest : Document)
  | paired (c : Component) (attributes : List TagAttribute)
      (ending : TagAttribute.EndsOpenly attributes) (inner rest : Document)
  | slot (name : List Char) (plain : IsSlotName name) (inner rest : Document)

/-- How the tags of a document are written. -/
structure Rendering where
  void : Component → List TagAttribute → List Char
  start : Component → List TagAttribute → List Char
  finish : Component → List Char
  slotStart : List Char → List Char
  slotFinish : List Char

namespace Document

/-- The text of a document in a rendering. -/
def render (r : Rendering) : Document → List Char
  | nil => []
  | text s _ rest => s ++ rest.render r
  | void c attributes rest => r.void c attributes ++ rest.render r
  | paired c attributes _ inner rest =>
    r.start c attributes ++ (inner.render r ++ (r.finish c ++ rest.render r))
  | slot name _ inner rest =>
    r.slotStart name ++ (inner.render r ++ (r.slotFinish ++ rest.render r))

/-- No slot stands in the document at any depth. -/
def SlotFree : Document → Prop
  | nil => True
  | text _ _ rest => rest.SlotFree
  | void _ _ rest => rest.SlotFree
  | paired _ _ _ inner rest => inner.SlotFree ∧ rest.SlotFree
  | slot .. => False

/-- Every element is one of a listed component, and no slot stands in another one. -/
def WellFormed (components : List Component) : Document → Prop
  | nil => True
  | text _ _ rest => rest.WellFormed components
  | void c _ rest => c ∈ components ∧ rest.WellFormed components
  | paired c _ _ inner rest =>
    c ∈ components ∧ inner.WellFormed components ∧ rest.WellFormed components
  | slot _ _ inner rest =>
    inner.SlotFree ∧ inner.WellFormed components ∧ rest.WellFormed components

/-- A document reads the same in renderings that write its tags alike. -/
theorem render_congr {components : List Component} {r r' : Rendering} {doc : Document}
    (formed : doc.WellFormed components)
    (void : ∀ c ∈ components, ∀ attributes, r.void c attributes = r'.void c attributes)
    (start : ∀ c ∈ components, ∀ attributes, r.start c attributes = r'.start c attributes)
    (finish : ∀ c ∈ components, r.finish c = r'.finish c)
    (slots : doc.SlotFree ∨ (r.slotStart = r'.slotStart ∧ r.slotFinish = r'.slotFinish)) :
    doc.render r = doc.render r' := by
  induction doc with
  | nil => rfl
  | text s tagless rest ih => rw [render, render, ih formed slots]
  | void c attributes rest ih => rw [render, render, void c formed.1, ih formed.2 slots]
  | paired c attributes ending inner rest ihInner ihRest =>
    have hinner := ihInner formed.2.1 (slots.imp_left And.left)
    have hrest := ihRest formed.2.2 (slots.imp_left And.right)
    rw [render, render, start c formed.1, finish c formed.1, hinner, hrest]
  | slot name plain inner rest ihInner ihRest =>
    have hslots := slots.resolve_left id
    rw [render, render, hslots.1, hslots.2, ihInner formed.2.1 (.inr hslots),
      ihRest formed.2.2 (.inr hslots)]

end Document

namespace Compiler

/-- The rendering in which a template is written. -/
def source (compiler : Compiler) : Rendering where
  void c attributes :=
    '<' :: ((compiler.target c).elementName ++ (TagAttribute.listText attributes ++ " />".toList))
  start c attributes :=
    '<' :: ((compiler.target c).elementName ++ (TagAttribute.listText attributes ++ ['>']))
  finish c := '<' :: '/' :: ((compiler.target c).elementName ++ ['>'])
  slotStart name := "<slot name=\"".toList ++ (name ++ "\">".toList)
  slotFinish := "</slot>".toList

/-- The rendering in which every tag is a directive. -/
def directives (compiler : Compiler) : Rendering where
  void c attributes := (compiler.target c).elementText (TagAttribute.listText attributes)
  start c attributes := (compiler.target c).startText (TagAttribute.listText attributes)
  finish c := (compiler.target c).finishText
  slotStart name := "@slot('".toList ++ (name ++ "')".toList)
  slotFinish := "@endslot".toList

end Compiler

end ComponentTags
