import ComponentTags.Component.Registry
import ComponentTags.Report
import ComponentTags.Stage

/-!
# Compiling a template

The components are compiled one after another, each over the text that the ones before it left. Every
component runs all stages. A component whose name is refused ends the compilation.
-/

namespace ComponentTags

structure Compiler where
  components : List Component
  tagPrefix : Value
  spelling : Directive.Spelling
  stages : List Stage

namespace Compiler

/-- A compiler for a list of components. -/
def ofList (components : List Component) (tagPrefix : Option String)
    (spelling : Option Directive.Spelling) : Compiler :=
  ⟨components, .text (tagPrefix.getD ""), spelling.getD {}, Stage.all⟩

/-- A compiler for the components of a registry. Its prefix and its context view are the registry's
unless others are given. -/
def ofRegistry (r : Registry) (tagPrefix : Option String) (spelling : Option Directive.Spelling) :
    Compiler :=
  ⟨r.components, (tagPrefix.map Value.text).getD r.tagPrefix,
    spelling.getD { contextView := r.contextView }, Stage.all⟩

/-- Runs stages on a text, one after another, and records their replacements. -/
def runStages (t : Target) : List Stage → Tally → List Char → Except PatternError (List Char × Tally)
  | [], tally, s => .ok (s, tally)
  | stage :: rest, tally, s =>
    match stage.run t s with
    | .error e => .error e
    | .ok (s, count) => runStages t rest (tally.record stage.label count) s

/-- Compiles components on a text, one after another, and reports each. -/
def runComponents (compiler : Compiler) :
    List Component → List Char → Except PatternError (List Char × List ComponentReport)
  | [], s => .ok (s, [])
  | c :: rest, s =>
    match runStages ⟨c, compiler.tagPrefix, compiler.spelling⟩ compiler.stages [] s with
    | .error e => .error e
    | .ok (s, tally) =>
      (runComponents compiler rest s).map fun (s, reports) => (s, ⟨c.tag, c.view, tally⟩ :: reports)

/-- Compiles a text given as characters. -/
def run (compiler : Compiler) (s : List Char) : Except PatternError (List Char × Report) :=
  (compiler.runComponents compiler.components s).map fun (s, reports) =>
    (s, ⟨compiler.tagPrefix, reports⟩)

/-- Compiles a template: the new text and the report. -/
def compile (compiler : Compiler) (text : String) : Except PatternError (String × Report) :=
  (compiler.run text.toList).map fun (s, report) => (String.ofList s, report)

end Compiler

end ComponentTags
