import ComponentTags.Proofs.ValidSettings

/-!
# Garbled settings

Most loads that fail end with a problem of the library. The others are those of a settings file that cannot be
looked for or opened for a reason that is no refusal of the system, of a file that is no text, of a document whose
reading breaks off, of a variable that spells a number of too many digits or JSON that nests too deep, and of a
check that breaks off. The file comes before the variables, a variable before those with greater names, and the
check comes last.
-/

namespace ComponentTags

namespace Settings

variable {tree : FileTree} {environment : Environment} {project : Project} {path : Path} {lower draft : Draft}
  {fields : Fields} {e : Failure}

/-! ## Variables -/

/-- What stands behind the mark in the name of a variable, if the variable is an override. -/
def marked? (name : String) : Option (List Char) :=
  Text.afterLiteral environmentMark.toList name.toList

/-- The error with which a variable stops those behind it, if it is an override and takes no effect. -/
def stop? [Services] (entry : String × String) : Option OverrideError :=
  match marked? entry.1 with
  | none => none
  | some rest =>
    match override? entry.1 rest entry.2 with
    | .error e => some e
    | .ok _ => none

/-- Variables are applied up to the first one that stops the others, whatever they write to. -/
theorem applyVariables_error {σ : Type} [Services] (write : σ → List Key → Value → σ) (fields : σ)
    (entries : List (String × String)) :
    (applyVariables write fields entries).error = entries.findSome? stop? := by
  induction entries generalizing fields with
  | nil => rfl
  | cons entry entries ih =>
    obtain ⟨name, value⟩ := entry
    rw [List.findSome?_cons]
    simp only [applyVariables, stop?, marked?]
    cases Text.afterLiteral environmentMark.toList name.toList with
    | none => exact ih fields
    | some rest =>
      cases hoverride : override? name rest value with
      | error e => simp [hoverride]
      | ok found => simpa [hoverride] using ih (write fields found.1 found.2)

variable [Services]

end Settings

end ComponentTags
