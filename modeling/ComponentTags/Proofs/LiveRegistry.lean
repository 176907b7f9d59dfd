import ComponentTags.Compiler.Session
import ComponentTags.Proofs.RegisteredContext

/-!
# Compilers on a registry that goes on changing

The registry of a session is the one that the changes among its actions lead to, and nothing else that is done
touches it. A compiler takes its prefix and its spelling from the registry when it is made, and its components
from the registry when it compiles. So a session on a registry with a context component compiles with compilers
that know the component, whenever they were made, unless the component or the context view is changed.
-/

namespace ComponentTags.Compiler

/-- The change that an action makes to the registry, if it is a change. -/
def Action.change? : Action → Option Registry.Change
  | .change c => some c
  | .find _ | .isRegistered _ | .makeCompiler _ | .compile _ => none

/-- The changes among actions. -/
def changes (history : List Action) : List Registry.Change :=
  history.filterMap Action.change?

theorem changes_append (first later : List Action) : changes (first ++ later) = changes first ++ changes later :=
  List.filterMap_append

namespace Session

/-- The session after actions. -/
def following (s : Session) (history : List Action) : Session :=
  history.foldl after s

variable {s : Session} {r r₀ : Registry} {history before later : List Action} {action : Action}
  {tagPrefix : Option String} {view : String}

theorem following_append (s : Session) (first later : List Action) :
    s.following (first ++ later) = (s.following first).following later :=
  List.foldl_append

/-! ## The registry -/

theorem registry_after (s : Session) (action : Action) :
    (s.after action).registry = s.registry.afterAll (changes [action]) := by
  cases action <;> rfl

/-- The registry of a session is the one after the changes among the actions. -/
theorem registry_following (s : Session) (history : List Action) :
    (s.following history).registry = s.registry.afterAll (changes history) := by
  induction history generalizing s with
  | nil => rfl
  | cons action rest ih =>
    have hrest : (s.following (action :: rest)).registry = ((s.after action).following rest).registry := rfl
    have hchanges : changes (action :: rest) = changes [action] ++ changes rest := changes_append [action] rest
    rw [hrest, ih, registry_after, hchanges]
    exact List.foldl_append.symm

/-- A session on a registry that was built by changes goes on with their history. -/
theorem registry_following_of_changeAll {first : List Registry.Change} (h : r₀.changeAll first = .ok r)
    (history : List Action) :
    ((new r).following history).registry = r₀.afterAll (first ++ changes history) := by
  rw [registry_following, Registry.afterAll, Registry.afterAll, List.foldl_append]
  exact congrArg (List.foldl Registry.after · _) (Registry.afterAll_of_changeAll h).symm

/-! ## The compiler -/

theorem made_after (h : ∀ tagPrefix, action ≠ .makeCompiler tagPrefix) : (s.after action).made = s.made := by
  cases action with
  | makeCompiler tagPrefix => exact absurd rfl (h tagPrefix)
  | change _ | find _ | isRegistered _ | compile _ => rfl

/-- What was made last stays until the next compiler is made. -/
theorem made_following (h : ∀ tagPrefix, .makeCompiler tagPrefix ∉ history) :
    (s.following history).made = s.made := by
  induction history generalizing s with
  | nil => rfl
  | cons action rest ih =>
    have hfirst : (s.after action).made = s.made :=
      made_after fun tagPrefix heq => h tagPrefix (heq ▸ List.mem_cons_self)
    have hrest : ((s.after action).following rest).made = (s.after action).made :=
      ih fun tagPrefix hmem => h tagPrefix (List.mem_cons_of_mem _ hmem)
    exact hrest.trans hfirst

/-- Without a compiler of its own, a session compiles with a new one on the registry of the moment. -/
theorem compiler_following_of_unmade (h : ∀ tagPrefix, .makeCompiler tagPrefix ∉ history) :
    ((new r).following history).compiler = .ofRegistry (r.afterAll (changes history)) none none := by
  have hmade : ((new r).following history).made = none := made_following h
  have hregistry : ((new r).following history).registry = r.afterAll (changes history) := registry_following _ _
  simp only [compiler, hmade, hregistry]

/-- The compiler that was made last has the prefix and the spelling of then and the components of now. -/
theorem compiler_following_of_made (h : ∀ tagPrefix, .makeCompiler tagPrefix ∉ later) :
    ((new r).following (before ++ .makeCompiler tagPrefix :: later)).compiler =
      { Compiler.ofRegistry (r.afterAll (changes before)) tagPrefix none with
        components := (r.afterAll (changes (before ++ later))).components } := by
  have hthen : ((new r).following before).registry = r.afterAll (changes before) := registry_following _ _
  have hnow : ((new r).following (before ++ .makeCompiler tagPrefix :: later)).registry =
      r.afterAll (changes (before ++ later)) := by
    rw [registry_following, changes_append, changes_append]
    rfl
  have hmade : ((new r).following (before ++ .makeCompiler tagPrefix :: later)).made =
      (((new r).following before).makeCompiler tagPrefix).made := by
    rw [following_append]
    exact made_following h
  simp only [compiler, hmade, hnow, makeCompiler, hthen]
  rfl

/-- Each action of a run is answered by the session after those before it. -/
theorem run_append (s : Session) (before : List Action) (action : Action) (later : List Action) :
    s.run (before ++ action :: later) = s.run before ++
      ((s.following before).answer action, (s.following (before ++ [action])).registry) ::
        (s.following (before ++ [action])).run later := by
  induction before generalizing s with
  | nil => rfl
  | cons first rest ih =>
    exact congrArg ((s.answer first, (s.after first).registry) :: ·) (ih (s.after first))

/-! ## The context component -/

/-- The last compiler that was made among actions, and what was done before it and behind it. -/
theorem exists_last_made (history : List Action) : (∀ tagPrefix, .makeCompiler tagPrefix ∉ history) ∨
    ∃ before tagPrefix later, history = before ++ .makeCompiler tagPrefix :: later ∧
      ∀ tagPrefix, .makeCompiler tagPrefix ∉ later := by
  induction history with
  | nil => exact .inl fun _ => List.not_mem_nil
  | cons action rest ih =>
    rcases ih with hrest | ⟨before, tagPrefix, later, rfl, hlater⟩
    · by_cases hfirst : ∃ tagPrefix, action = .makeCompiler tagPrefix
      · obtain ⟨tagPrefix, rfl⟩ := hfirst
        exact .inr ⟨[], tagPrefix, rest, rfl, hrest⟩
      · refine .inl fun tagPrefix hmem => ?_
        rcases List.mem_cons.1 hmem with heq | hmem
        · exact hfirst ⟨tagPrefix, heq.symm⟩
        · exact hrest tagPrefix hmem
    · exact .inr ⟨action :: before, tagPrefix, later, rfl, hlater⟩

/-- What is made on a registry that began with a prefix goes by a prefix that is a text. -/
theorem exists_tagPrefix_ofRegistry (hnew : Registry.new tagPrefix true view = .ok r) (changes : List Registry.Change)
    (own : Option String) : ∃ start, (Compiler.ofRegistry (r.afterAll changes) own none).tagPrefix = .text start := by
  cases own with
  | some start => exact ⟨start, rfl⟩
  | none =>
    have htext : ∃ start, (Registry.empty (.text (tagPrefix.getD "")) (.text view)).tagPrefix = .text start :=
      ⟨_, Registry.orEmpty_text _⟩
    rw [← Registry.afterAll_initial hnew]
    exact Registry.textual_afterAll (Registry.textual_afterAll htext _) _

/-- A compiler of a registry that has changed since is one of the registry as it is now, under the same prefix. -/
theorem ofRegistry_with_components {made now : Registry} {own : Option String} {start : String}
    (hstart : (Compiler.ofRegistry made own none).tagPrefix = .text start)
    (hview : made.contextView = now.contextView) :
    { Compiler.ofRegistry made own none with components := now.components } =
      Compiler.ofRegistry now (some start) none := by
  simp only [Compiler.ofRegistry] at hstart ⊢
  simp [hstart, hview]

/-- Whenever the compilers of a session are made, they have the context component, if neither it nor the context
view is changed. -/
theorem madeWithContext_compiler (hnew : Registry.new tagPrefix true view = .ok r)
    (hviews : ∀ other, .setContextView other ∉ changes history)
    (hagain : contextTag ∉ Registry.registered (r.calls (changes history))) :
    MadeWithContext view ((new r).following history).compiler := by
  have made (otherPrefix : Option String) :
      MadeWithContext view (Compiler.ofRegistry (r.afterAll (changes history)) otherPrefix none) :=
    .ofRegistry hnew hviews hagain otherPrefix Stage.all
  rcases exists_last_made history with hunmade | ⟨before, own, later, rfl, hlater⟩
  · rw [compiler_following_of_unmade hunmade]
    exact made none
  · have hsame : changes (before ++ .makeCompiler own :: later) = changes (before ++ later) := by
      rw [changes_append, changes_append]
      rfl
    rw [hsame] at hviews made
    have hbefore : ∀ other, .setContextView other ∉ changes before := fun other hmem =>
      hviews other (by rw [changes_append]; exact List.mem_append_left _ hmem)
    have hview : (r.afterAll (changes before)).contextView = (r.afterAll (changes (before ++ later))).contextView := by
      rw [Registry.contextView_afterAll hbefore, Registry.contextView_afterAll hviews]
    obtain ⟨start, hstart⟩ := exists_tagPrefix_ofRegistry hnew (changes before) own
    rw [compiler_following_of_made hlater, ofRegistry_with_components hstart hview]
    exact made (some start)

end Session

end ComponentTags.Compiler
