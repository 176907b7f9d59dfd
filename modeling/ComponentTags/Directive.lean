import ComponentTags.Component

/-!
# Directives

The text that stands in the output in place of an element. A component's directive passes its view
one merged array: first the context stack, then the element's attributes, then the output of the
data model. The context component pushes its attributes to the stack instead, and pops them at its
end.
-/

namespace ComponentTags.Directive

/-- How the renderer spells the context: the view that marks the context component, and the expression
that yields the stack. -/
structure Spelling where
  contextView : Value := defaultContextView
  contextStack : Value := "app(Spatie\\BladeX\\ContextStack::class)"
  deriving Repr

/-- The expression that reads the context stack. -/
def Spelling.contextRead (spelling : Spelling) : String :=
  spelling.contextStack.plain ++ "->read()"

/-- Attributes as the entries of an array literal. -/
def entriesText (attributes : Assoc String String) : String :=
  ",".intercalate (attributes.map fun (key, value) => "'" ++ key ++ "' => " ++ value)

/-- The directive that replaces an opening tag. -/
def start (spelling : Spelling) (c : Component) (attributes : Assoc String String) : String :=
  let array := "[" ++ entriesText attributes ++ "]"
  if c.isContext spelling.contextView then
    "@php(" ++ spelling.contextStack.plain ++ "->push(" ++ array ++ "))"
  else
    let merged := "array_merge(" ++ spelling.contextRead ++ ", " ++ array
    let arguments :=
      match Component.modelOf c.dataModel with
      | some model => merged ++ ", app(" ++ model.plain ++ "::class, " ++ merged ++ "))->toArray())"
      | none => merged ++ ")"
    "@component('" ++ c.view ++ "', " ++ arguments ++ ")"

/-- The directive that replaces a closing tag. -/
def finish (spelling : Spelling) (c : Component) : String :=
  if c.isContext spelling.contextView then "@php(" ++ spelling.contextStack.plain ++ "->pop())"
  else " @endcomponent"

/-- The directives that replace an element without content. -/
def element (spelling : Spelling) (c : Component) (attributes : Assoc String String) : String :=
  start spelling c attributes ++ finish spelling c

/-- The directive that replaces a slot. -/
def slot (name contents : List Char) : List Char :=
  "@slot('".toList ++ name ++ "')".toList ++ contents ++ "@endslot".toList

end ComponentTags.Directive
