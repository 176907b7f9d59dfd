import ComponentTags.Proofs.RegisteredContext

/-!
# The directives of the context component

A compiler with the registered context component replaces the tags of that component first. It knows the
component by its view, which has no outer blanks, and compares that with the context view as it was given. So
the tags push to the stack and pop from it exactly if the context view has no outer blanks; otherwise they
start and end a component like any other.
-/

namespace ComponentTags

namespace Directive

/-- What stands in place of the tags of an element: a text for a start tag with given attributes and one for an
end tag. -/
structure Pair where
  start : List Char → List Char
  finish : List Char

namespace Pair

/-- Pushes the attributes to the stack and pops them. -/
def ofStack (stack : Value) : Pair where
  start attributes :=
    ("@php(" ++ stack.plain ++ "->push(" ++ ("[" ++ entriesText (Attribute.parse attributes) ++ "]") ++
      "))").toList
  finish := ("@php(" ++ stack.plain ++ "->pop())").toList

/-- Starts and ends the component of a view. -/
def Renders (d : Pair) (view : String) : Prop :=
  (∀ attributes, ∃ arguments,
    d.start attributes = ("@component('" ++ view ++ "', " ++ arguments ++ ")").toList) ∧
  d.finish = " @endcomponent".toList

end Pair

end Directive

namespace Target

variable {t : Target}

/-- What stands in place of the tags of the target. -/
def pair (t : Target) : Directive.Pair :=
  ⟨t.startText, t.finishText⟩

theorem pair_of_isContext (h : t.component.isContext t.spelling.contextView = true) :
    t.pair = .ofStack t.spelling.contextStack := by
  have hstart : t.startText = (Directive.Pair.ofStack t.spelling.contextStack).start := by
    funext attributes
    simp only [startText, Directive.start, h, if_true, Directive.Pair.ofStack]
  have hfinish : t.finishText = (Directive.Pair.ofStack t.spelling.contextStack).finish := by
    simp only [finishText, Directive.finish, h, if_true, Directive.Pair.ofStack]
  rw [pair, hstart, hfinish]

theorem renders_of_not_isContext (h : t.component.isContext t.spelling.contextView = false) :
    t.pair.Renders t.component.view := by
  constructor
  · intro attributes
    simp only [pair, startText, Directive.start, h, Bool.false_eq_true, if_false]
    exact ⟨_, rfl⟩
  · simp only [pair, finishText, Directive.finish, h, Bool.false_eq_true, if_false]

end Target

namespace Stage

/-- Puts directives in place of the occurrences that a stage finds of a name. -/
def replaceTags (stage : Stage) (name : List Char) (d : Directive.Pair) (s : List Char) : List Char :=
  match stage with
  | slot => Markup.slot.replace (fun found => Directive.slot found.name found.contents) s
  | selfClosing => (Markup.selfClosing name).replace (fun attributes => d.start attributes ++ d.finish) s
  | opening => (Markup.opening name).replace d.start s
  | closing => (Markup.closing name).replace (fun _ => d.finish) s

theorem rewrite_eq_replaceTags (stage : Stage) (t : Target) (s : List Char) :
    stage.rewrite t s = stage.replaceTags t.elementName t.pair s := by
  cases stage with
  | slot | opening | closing => rfl
  | selfClosing =>
    have both : t.elementText = fun attributes => t.pair.start attributes ++ t.pair.finish :=
      funext t.elementText_eq_append
    rw [rewrite, both]
    rfl

/-- Puts directives in place of all that stages find of a name, one stage after another. -/
def replaceAllTags (stages : List Stage) (name : List Char) (d : Directive.Pair) (s : List Char) :
    List Char :=
  stages.foldl (fun s stage => stage.replaceTags name d s) s

theorem rewriteStages_eq_replaceAllTags (t : Target) (stages : List Stage) (s : List Char) :
    Compiler.rewriteStages t stages s = replaceAllTags stages t.elementName t.pair s := by
  simp only [Compiler.rewriteStages, replaceAllTags, rewrite_eq_replaceTags]

end Stage

namespace Compiler

variable {compiler : Compiler} {view start : String}

/-- Under a prefix that is accepted, every compilation first replaces what the stages find of the context tag,
and then compiles the other components, none of which has that tag. The directives push to the stack and pop
from it if the context view has no outer blanks, and otherwise start and end a component. -/
theorem compile_context (made : MadeWithContext view compiler) (hstart : compiler.tagPrefix = .text start)
    (accepted : isTagPrefix start.toList = true) :
    ∃ (sentinel : Component) (rest : List Component) (d : Directive.Pair),
      compiler.components = sentinel :: rest ∧ sentinel.tag = .text contextTag ∧
      (∀ c ∈ rest, c.tag ≠ .text contextTag) ∧
      (∀ text, ∃ compiled, compiler.result? text = some compiled ∧
        { compiler with components := rest }.result? (String.ofList
          (Stage.replaceAllTags compiler.stages (start.toList ++ contextTag.toList) d text.toList)) =
            some compiled) ∧
      (Component.viewOf view = view → d = .ofStack compiler.spelling.contextStack) ∧
      (Component.viewOf view ≠ view → d.Renders (Component.viewOf view)) := by
  obtain ⟨⟨dataModel, rest, hcomponents, others⟩, hview, tagged⟩ := made.leads
  let sentinel : Component := ⟨Component.viewOf view, contextTag, dataModel⟩
  have hname : (compiler.target sentinel).elementName = start.toList ++ contextTag.toList :=
    Target.elementName_eq_append rfl hstart
  have known : sentinel.isContext compiler.spelling.contextView = (view == Component.viewOf view) := by
    rw [hview]
    rfl
  refine ⟨sentinel, rest, (compiler.target sentinel).pair, hcomponents, rfl, others, ?_, ?_, ?_⟩
  · intro text
    have all : compiler.Accepts compiler.components := accepts_of_hasTag hstart accepted tagged
    have later : { compiler with components := rest }.Accepts rest :=
      fun c hc => all c (hcomponents ▸ List.mem_cons_of_mem _ hc)
    refine ⟨_, result?_of_accepts all text, ?_⟩
    rw [result?_of_accepts later, hcomponents, rewriteText_cons, Stage.rewriteStages_eq_replaceAllTags,
      hname, String.toList_ofList]
    rfl
  · intro hsame
    exact Target.pair_of_isContext (known.trans (by rw [hsame]; exact beq_self_eq_true view))
  · intro hpadded
    exact Target.renders_of_not_isContext (known.trans (beq_eq_false_iff_ne.2 hpadded.symm))

/-- A compiler on a registry with the context component and another one. -/
def withCard : Compiler :=
  .ofRegistry (Registry.contextOnly.afterAll [.add "components.card" (some "card") none]) none none

/-- A registry with the context component and another one, and the default settings. -/
theorem compile_context_of_card :
    (MadeWithContext "bladex::context" withCard ∧ ∃ compiled,
      withCard.result? "<x-context a=\"1\"><x-card/></x-context>" = some compiled ∧
      { withCard with components := [⟨"components.card", "card", none⟩] }.result? (String.ofList
        (Stage.replaceAllTags Stage.all "x-context".toList (.ofStack withCard.spelling.contextStack)
          "<x-context a=\"1\"><x-card/></x-context>".toList)) = some compiled) ∧
    ∃ compiler, (Settings.compiler Settings.defaults (some "x-")).result = .ok compiler ∧
      MadeWithContext defaultContextView compiler ∧ ∃ compiled,
        compiler.result? "<x-context a=\"1\">" = some compiled ∧
        { compiler with components := [] }.result? (String.ofList
          (Stage.replaceAllTags compiler.stages "x-context".toList
            (.ofStack compiler.spelling.contextStack) "<x-context a=\"1\">".toList)) = some compiled := by
  have added : Registry.registered (Registry.contextOnly.calls [.add "components.card" (some "card") none]) =
      ["card"] := rfl
  have made : MadeWithContext "bladex::context" withCard :=
    @MadeWithContext.ofRegistry "bladex::context" (some "x-") Registry.contextOnly
      [.add "components.card" (some "card") none] rfl (by simp) (by rw [added]; decide) none Stage.all
  obtain ⟨sentinel, rest, d, hcomponents, -, -, compiles, plain, -⟩ :=
    @compile_context withCard "bladex::context" "x-" made rfl (by decide +kernel)
  have components : withCard.components =
      [⟨"bladex::context", "context", none⟩, ⟨"components.card", "card", none⟩] := rfl
  rw [components] at hcomponents
  cases hcomponents
  obtain rfl := plain rfl
  refine ⟨⟨made, compiles "<x-context a=\"1\"><x-card/></x-context>"⟩, ?_⟩
  obtain ⟨compiler, hbuilt, hprefix, hsole, madeFromSettings⟩ := exists_madeWithContext_of_defaults "x-"
  obtain ⟨sentinel, rest, d, hcomponents, -, -, compiles, plain, -⟩ :=
    compile_context madeFromSettings hprefix (by decide +kernel)
  rw [hsole] at hcomponents
  cases hcomponents
  obtain rfl := plain rfl
  exact ⟨compiler, hbuilt, madeFromSettings, compiles "<x-context a=\"1\">"⟩

/-- Blanks around the context view make the context component one like any other. -/
theorem compile_padded_context : ∃ compiler, MadeWithContext " ctx " compiler ∧
    compiler.tagPrefix = .text "" ∧
    compiler.result? "<context a=\"1\"></context>" =
      some ("@component('ctx', array_merge(app(Spatie\\BladeX\\ContextStack::class)->read(), ['a' => '1']))" ++
        " @endcomponent") := by
  have made : MadeWithContext " ctx " (Compiler.ofRegistry
      ⟨"", " ctx ", [("context", ⟨"ctx", "context", none⟩)]⟩ none none) :=
    @MadeWithContext.ofRegistry " ctx " none _ [] rfl (by simp) (by simp [Registry.calls, Registry.registered])
      none Stage.all
  exact ⟨_, made, rfl, by decide +kernel⟩

end Compiler

end ComponentTags
