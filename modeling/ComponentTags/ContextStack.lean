import ComponentTags.Problem

/-!
# The context stack

What compiled templates do at run time: a frame of values is pushed where a context opens and popped
where it closes, and every component reads the frames merged. A scope pushes a frame for the time of
a body and pops one at the end, whether the body ends normally or is left early. `ContextStack.run`
runs a program of such steps and notes what each of them leaves behind.
-/

namespace ComponentTags

abbrev Frame := Assoc String Value

/-- The frames of a stack, the top one first. -/
structure ContextStack where
  frames : List Frame

namespace ContextStack

inductive Error where
  | empty
  deriving DecidableEq, Repr

def Error.message : Error → String
  | .empty => "Cannot pop an empty context stack"

def Error.problem (e : Error) : Problem :=
  ⟨.stack, e.message, []⟩

def empty : ContextStack := ⟨[]⟩

def depth (s : ContextStack) : Nat :=
  s.frames.length

/-- Puts a frame of the given entries on top. The frame is a copy, with one entry per key. -/
def push (s : ContextStack) (data : List (String × Value)) : ContextStack :=
  ⟨Assoc.ofList data :: s.frames⟩

/-- Takes the top frame off. -/
def pop (s : ContextStack) : Except Error (Frame × ContextStack) :=
  match s.frames with
  | [] => .error .empty
  | frame :: rest => .ok (frame, ⟨rest⟩)

/-- All frames merged: a key stands where the lowest frame holds it and has the value of the highest one. -/
def read (s : ContextStack) : Frame :=
  s.frames.foldr (fun frame merged => Assoc.insertAll merged frame) []

/-- A step of a program. `leave` ends the scopes around it early, up to the innermost attempt, and so does
a `remove` that is refused. -/
inductive Step where
  | push (data : List (String × Value))
  | remove
  | clear
  | within (data : List (String × Value)) (body : List Step)
  | attempt (body : List Step)
  | leave
  deriving Inhabited

/-- Takes a frame off. What follows is carried out even if there is none. -/
def Step.pop : Step := .attempt [.remove]

/-- A scope on its own: however its body ends, what follows the scope is carried out. -/
def Step.scope (data : List (String × Value)) (body : List Step) : Step :=
  .attempt [.within data body]

/-- What a step did. -/
inductive Effect where
  | done
  | popped (frame : Frame)
  | refused (e : Error)
  | entered
  | exited
  | left

/-- What a step did and the stack after it. -/
structure Event where
  effect : Effect
  stack : ContextStack

/-- A program that has ended: the events in order, the stack, and whether it ended early. -/
structure Run where
  events : List Event
  stack : ContextStack
  leftEarly : Bool

/-- Ends a scope: a frame is popped even if the body was left early. If there is none to pop, that leaves
what is around the scope, too. -/
def closeScope (body : Run) : Run :=
  match body.stack.pop with
  | .error e => ⟨body.events ++ [⟨.refused e, body.stack⟩], body.stack, true⟩
  | .ok (_, s) =>
    ⟨body.events ++ [⟨if body.leftEarly then .left else .exited, s⟩], s, body.leftEarly⟩

mutual

/-- Runs one step. -/
def runStep (s : ContextStack) : Step → Run
  | .push data => ⟨[⟨.done, s.push data⟩], s.push data, false⟩
  | .remove =>
    match s.pop with
    | .error e => ⟨[⟨.refused e, s⟩], s, true⟩
    | .ok (frame, s) => ⟨[⟨.popped frame, s⟩], s, false⟩
  | .clear => ⟨[⟨.done, empty⟩], empty, false⟩
  | .within data body =>
    let closed := closeScope (runSteps (s.push data) body)
    { closed with events := ⟨.entered, s.push data⟩ :: closed.events }
  | .attempt body => { runSteps s body with leftEarly := false }
  | .leave => ⟨[], s, true⟩

/-- Runs steps up to the end of the program or to a step that leaves it. -/
def runSteps (s : ContextStack) : List Step → Run
  | [] => ⟨[], s, false⟩
  | step :: rest =>
    let first := runStep s step
    if first.leftEarly then first
    else
      let others := runSteps first.stack rest
      ⟨first.events ++ others.events, others.stack, others.leftEarly⟩

end

/-- Runs a whole program on a stack. A program that is left early notes that at its end. -/
def run (s : ContextStack) (program : List Step) : Run :=
  let result := runSteps s program
  if result.leftEarly then { result with events := result.events ++ [⟨.left, result.stack⟩] }
  else result

end ContextStack

end ComponentTags
