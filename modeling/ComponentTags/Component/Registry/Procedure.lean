import ComponentTags.Component.Registry.Change

/-!
# Changes step by step

A change to a registry as a sequence of steps that read it, write to it or end the change. What was written
before a step that ends the change stays written. No change has such a step behind one that writes, so a
refused change leaves the registry as it was.
-/

namespace ComponentTags.Registry

/-- Steps on a registry, which may end with an error and leave the registry as it is by then. -/
abbrev Procedure := EStateM RegistrationError Registry

namespace Procedure

/-- Goes on with a result or ends with its error. -/
def check {α : Type} : Except RegistrationError α → Procedure α
  | .ok a => pure a
  | .error e => throw e

/-- Writes a component under a tag. -/
def store (tag : String) (c : Component) : Procedure Unit :=
  modify fun r => { r with entries := r.entries.insert tag c }

end Procedure

open Procedure

/-- The steps of a change. -/
def Change.perform : Change → Procedure (Option Component)
  | .add view tag dataModel => do
    let c ← check (Component.make view tag dataModel)
    store c.tag.plain c
    return some c
  | .register c => do
    let tag ← check (validateTag c.tag (some c.view))
    store tag c
    return some c
  | .setDataModel tag dataModel => do
    match (← get).get? tag with
    | none => throw (.unknownTag tag)
    | some c =>
      store tag (c.withDataModel dataModel)
      return some (c.withDataModel dataModel)
  | .setTagPrefix tagPrefix => do
    modify (·.setTagPrefix tagPrefix)
    return none
  | .setContextView view => do
    modify ({ · with contextView := .text view })
    return none

/-- The registry that steps leave, whether they end with an error or not. -/
def left {α : Type} : EStateM.Result RegistrationError Registry α → Registry
  | .ok _ r => r
  | .error _ r => r

/-- The registry after the steps of a history of changes. -/
def performAll (r : Registry) (history : List Change) : Registry :=
  history.foldl (fun r change => left (change.perform r)) r

/-- The steps of a change do what the change does at once. -/
theorem perform_eq (change : Change) (r : Registry) :
    change.perform r = match r.change change with
      | .ok (changed, answered) => .ok answered changed
      | .error e => .error e r := by
  cases change with
  | add view tag dataModel =>
    rw [Change.perform, Registry.change, Registry.add]
    cases hmake : Component.make view tag dataModel with
    | error e => rfl
    | ok c =>
      obtain ⟨-, -, -, -, s, htag, hs⟩ := Component.make_eq_ok hmake
      have hplain : c.tag.plain = s := by simp [htag, Value.plain]
      have hregister : r.register c = .ok { r with entries := r.entries.insert c.tag.plain c } := by
        simp [Registry.register, validateTag_eq_ok_iff.2 ⟨htag, hs⟩, Except.map, hplain]
      simp only [hregister]
      rfl
  | register c =>
    rw [Change.perform, Registry.change, Registry.register]
    cases validateTag c.tag (some c.view) with
    | error e => rfl
    | ok tag => rfl
  | setDataModel tag dataModel =>
    have steps : (Change.setDataModel tag dataModel).perform r =
        (match r.get? tag with
          | none => throw (.unknownTag tag)
          | some c => do
            store tag (c.withDataModel dataModel)
            return some (c.withDataModel dataModel) : Procedure (Option Component)) r := rfl
    rw [steps, Registry.change, Registry.setDataModel]
    cases r.get? tag with
    | none => rfl
    | some c => rfl
  | setTagPrefix tagPrefix => rfl
  | setContextView view => rfl

end ComponentTags.Registry
