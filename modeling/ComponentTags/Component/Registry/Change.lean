import ComponentTags.Component.Registry

/-!
# Changes to a registry

What can be done to a registry after it was made. A change that is refused leaves the registry as it
was, so a history of changes, refused ones included, always leads to a registry.
-/

namespace ComponentTags.Registry

inductive Change where
  | add (view : String) (tag : Option Value) (dataModel : Option Value)
  | register (c : Component)
  | setDataModel (tag : String) (dataModel : Option Value)
  | setTagPrefix (tagPrefix : Option String)
  | setContextView (view : String)

/-- The registry after a change that is not refused, and the component that the change was about, if it
was about one. -/
def change (r : Registry) : Change → Except RegistrationError (Registry × Option Component)
  | .add view tag dataModel => (r.add view tag dataModel).map fun (r, c) => (r, some c)
  | .register c => (r.register c).map (·, some c)
  | .setDataModel tag dataModel => (r.setDataModel tag dataModel).map fun (r, c) => (r, some c)
  | .setTagPrefix tagPrefix => .ok (r.setTagPrefix tagPrefix, none)
  | .setContextView view => .ok ({ r with contextView := .text view }, none)

/-- The registry after a change, which may be refused. -/
def after (r : Registry) (c : Change) : Registry :=
  match r.change c with
  | .ok (changed, _) => changed
  | .error _ => r

/-- The registry after a history of changes. -/
def afterAll (r : Registry) (history : List Change) : Registry :=
  history.foldl after r

/-- The registry after changes none of which may be refused. -/
def changeAll (r : Registry) : List Change → Except RegistrationError Registry
  | [] => .ok r
  | c :: rest =>
    match r.change c with
    | .error e => .error e
    | .ok (changed, _) => changed.changeAll rest

theorem after_of_ok {r changed : Registry} {c : Change} {component : Option Component}
    (h : r.change c = .ok (changed, component)) : r.after c = changed := by
  simp [after, h]

theorem after_of_error {r : Registry} {c : Change} {e : RegistrationError}
    (h : r.change c = .error e) : r.after c = r := by
  simp [after, h]

/-- Changes none of which is refused lead to the same registry as their history. -/
theorem afterAll_of_changeAll {r changed : Registry} {history : List Change}
    (h : r.changeAll history = .ok changed) : r.afterAll history = changed := by
  induction history generalizing r with
  | nil =>
    simp only [changeAll, Except.ok.injEq] at h
    exact h
  | cons c rest ih =>
    simp only [changeAll] at h
    split at h
    · simp at h
    · rename_i next component hc
      simpa [afterAll, after_of_ok hc] using ih h

end ComponentTags.Registry
