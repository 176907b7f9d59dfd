import ComponentTags.Compiler
import ComponentTags.Component.Registry.Change
import ComponentTags.Failure

/-!
# Compiler sessions

A registry that goes on changing while templates are compiled. A compiler keeps the prefix and the
spelling that it was made with; its components are those that the registry holds when it compiles.
-/

namespace ComponentTags.Compiler

/-- A registry, and the prefix and the spelling of the compiler that was made last. -/
structure Session where
  registry : Registry
  made : Option (Value × Directive.Spelling)

/-- What can be done in a session. -/
inductive Action where
  | change (c : Registry.Change)
  | find (tag : String)
  | isRegistered (tag : String)
  | makeCompiler (tagPrefix : Option String)
  | compile (text : String)

/-- What an action answers. -/
inductive Answer where
  | component (c : Option Component)
  | isRegistered (b : Bool)
  | tagPrefix (v : Value)
  | contextView (v : Value)
  | made (tagPrefix : Value) (spelling : Directive.Spelling)
  | compiled (text : String) (report : Report)

namespace Session

def new (r : Registry) : Session :=
  ⟨r, none⟩

/-- The compiler that was made last or, if none was, a new one. -/
def compiler (s : Session) : Compiler :=
  let current := Compiler.ofRegistry s.registry none none
  match s.made with
  | some (tagPrefix, spelling) => { current with tagPrefix, spelling }
  | none => current

/-- The session with a new compiler. -/
def makeCompiler (s : Session) (tagPrefix : Option String) : Session :=
  let compiler := Compiler.ofRegistry s.registry tagPrefix none
  { s with made := some (compiler.tagPrefix, compiler.spelling) }

/-- The answer to a change that is not refused and leaves the given registry. -/
def changed (r : Registry) (component : Option Component) : Registry.Change → Answer
  | .setTagPrefix _ => .tagPrefix r.tagPrefix
  | .setContextView _ => .contextView r.contextView
  | .add .. | .register _ | .setDataModel .. => .component component

/-- The answer to an action. -/
def answer (s : Session) : Action → Except Failure Answer
  | .change c =>
    match s.registry.change c with
    | .error e => .error (.registration e)
    | .ok (r, component) => .ok (changed r component c)
  | .find tag => .ok (.component (s.registry.get? tag))
  | .isRegistered tag => .ok (.isRegistered (s.registry.contains tag))
  | .makeCompiler tagPrefix =>
    let compiler := (s.makeCompiler tagPrefix).compiler
    .ok (.made compiler.tagPrefix compiler.spelling)
  | .compile text =>
    match s.compiler.compile text with
    | .error e => .error (.pattern e)
    | .ok (compiled, report) => .ok (.compiled compiled report)

/-- The session after an action. -/
def after (s : Session) : Action → Session
  | .change c => { s with registry := s.registry.after c }
  | .makeCompiler tagPrefix => s.makeCompiler tagPrefix
  | .find _ | .isRegistered _ | .compile _ => s

/-- The answers to actions that are done one after another, each with the registry behind it. -/
def run (s : Session) : List Action → List (Except Failure Answer × Registry)
  | [] => []
  | action :: rest => (s.answer action, (s.after action).registry) :: (s.after action).run rest

end Session

end ComponentTags.Compiler
