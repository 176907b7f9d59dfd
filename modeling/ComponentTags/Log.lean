import ComponentTags.Failure
import ComponentTags.Report

/-!
# The log

What a run tells about its progress. A logged computation gives the events up to its end together with
its result, so that a failure loses none of the events before it.
-/

namespace ComponentTags

/-- What can be told about a run. -/
inductive Event where
  | commandStarted (name : String)
  | settingsFileRead (path : Path)
  | variableApplied (name : String)
  | componentReplaced (tag view : String)
  | componentCompiled (tagPrefix : Value) (report : ComponentReport)
  | compilationFinished (components : Nat) (total : Int)

namespace Event

/-- The part of the program that an event comes from. -/
def source : Event → String
  | commandStarted _ => "bladetags.cli._dispatcher"
  | settingsFileRead _ | variableApplied _ => "bladetags.core.config"
  | componentReplaced .. => "bladetags.core.components"
  | componentCompiled .. | compilationFinished .. => "bladetags.core.compiler.engine"

def message : Event → String
  | commandStarted name => "Running command " ++ name
  | settingsFileRead path => "Loading project config " ++ path.text
  | variableApplied name => "Applied env override " ++ name
  | componentReplaced tag view =>
    "Replacing component for tag " ++ Text.quoted tag ++ " (" ++ view ++ ")"
  | componentCompiled tagPrefix report =>
    "Compiled component " ++ tagPrefix.plain ++ report.tag.plain ++ " (" ++ report.view ++ "): " ++
      report.tally.toValue.display
  | compilationFinished components total =>
    "Compile finished: " ++ Decimal.natText components ++ " components, " ++
      Decimal.intText total ++ " rewrites"

/-- The event as a line of the log. -/
def line (e : Event) : String :=
  "DEBUG " ++ e.source ++ ": " ++ e.message ++ "\n"

end Event

/-- The events of a successful compilation. -/
def Report.events (r : Report) : List Event :=
  r.components.map (.componentCompiled r.tagPrefix) ++
    [.compilationFinished r.components.length r.total]

/-- A result and the events on the way to it. -/
structure Logged (α : Type) where
  events : List Event
  result : Except Failure α

namespace Logged

/-- A computation that tells nothing. -/
def silent {α : Type} (result : Except Failure α) : Logged α :=
  ⟨[], result⟩

/-- Goes on with the result, if there is one. -/
def andThen {α β : Type} (x : Logged α) (next : α → Logged β) : Logged β :=
  match x.result with
  | .error e => ⟨x.events, .error e⟩
  | .ok a => ⟨x.events ++ (next a).events, (next a).result⟩

instance : Monad Logged where
  pure a := silent (.ok a)
  bind := andThen

/-- Tells an event. -/
def tell (e : Event) : Logged Unit :=
  ⟨[e], .ok ()⟩

def fail {α : Type} (e : Failure) : Logged α :=
  silent (.error e)

@[simp]
theorem bind_result_ok {α β : Type} {x : Logged α} {a : α} (h : x.result = .ok a)
    (next : α → Logged β) : (x >>= next).result = (next a).result := by
  simp [bind, andThen, h]

@[simp]
theorem bind_result_error {α β : Type} {x : Logged α} {e : Failure} (h : x.result = .error e)
    (next : α → Logged β) : (x >>= next).result = .error e := by
  simp [bind, andThen, h]

theorem bind_result {α β : Type} (x : Logged α) (next : α → Logged β) :
    (x >>= next).result = x.result >>= fun a => (next a).result := by
  cases hx : x.result with
  | error e => exact bind_result_error hx next
  | ok a => exact bind_result_ok hx next

/-- Telling events does not fail. -/
theorem forM_tell_result (events : List Event) : (events.forM tell).result = .ok () := by
  induction events with
  | nil => rfl
  | cons event events ih => exact (bind_result_ok rfl _).trans ih

/-- A computation that goes on succeeds only if both parts do. -/
theorem bind_result_eq_ok {α β : Type} {x : Logged α} {next : α → Logged β} {b : β}
    (h : (x >>= next).result = .ok b) : ∃ a, x.result = .ok a ∧ (next a).result = .ok b := by
  cases hx : x.result with
  | error e => simp [bind_result_error hx] at h
  | ok a => exact ⟨a, rfl, by rwa [bind_result_ok hx] at h⟩

end Logged

end ComponentTags
