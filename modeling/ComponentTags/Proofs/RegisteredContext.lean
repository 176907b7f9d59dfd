import ComponentTags.Proofs.RegistryHistory
import ComponentTags.Settings.Building

/-!
# The registered context component

A registry that is made with the context component keeps it in front, and under its tag alone, until the tag
is registered again. The component has the context view without outer blanks; the registry and settings keep
that view as it was given. A registry that comes from settings is one with a history: its components were
added to a bare one.
-/

namespace ComponentTags

/-- The view of a component that is made from a text. -/
def Component.viewOf (text : String) : String :=
  String.ofList (Text.strip text.toList)

namespace Registry

variable {r : Registry} {change : Change} {history : List Change} {call : Call} {view : String}

/-- The context component, made from a context view, is the first one. -/
def LeadsWithContext (r : Registry) (view : String) : Prop :=
  ∃ dataModel rest, r.entries = (contextTag, ⟨Component.viewOf view, contextTag, dataModel⟩) :: rest

/-- A call that registers nothing gives a registered component another data model. -/
theorem of_call?_of_not_registers (h : r.call? change = some call) (hnot : call.registers = false) :
    ∃ c dataModel, r.get? call.tag = some c ∧ call.component = c.withDataModel dataModel := by
  unfold call? at h
  split at h
  · rename_i changed answered hchange
    cases h
    rcases change_eq_ok hchange with ⟨c, tag, -, -, hregisters, -⟩ |
      ⟨c, tag, dataModel, heq, rfl, hget, -⟩ | ⟨heq, -⟩
    · exact absurd hnot (by simp [hregisters])
    · cases heq
      exact ⟨c, dataModel, hget, rfl⟩
    · cases heq
  · cases h
  · cases h

theorem LeadsWithContext.after (leads : r.LeadsWithContext view)
    (hagain : ∀ call, r.call? change = some call → call.registers = true → call.tag ≠ contextTag) :
    (r.after change).LeadsWithContext view := by
  obtain ⟨dataModel, rest, hentries⟩ := leads
  have hafter := entries_after r change
  cases hcall : r.call? change with
  | none => exact ⟨dataModel, rest, by rw [hafter, hcall]; exact hentries⟩
  | some call =>
    simp only [hcall, hentries] at hafter
    by_cases htag : call.tag = contextTag
    · have hnot : call.registers = false :=
        Bool.eq_false_iff.2 fun hregisters => hagain call hcall hregisters htag
      obtain ⟨c, dataModel, hget, hcomponent⟩ := of_call?_of_not_registers hcall hnot
      rw [htag, get?, hentries, Assoc.get?, if_pos rfl] at hget
      cases hget
      exact ⟨_, rest, by rw [hafter, hcomponent, htag, Assoc.insert, if_pos rfl]; rfl⟩
    · exact ⟨dataModel, _, by rw [hafter, Assoc.insert, if_neg (Ne.symm htag)]⟩

/-- The context component stays in front as long as its tag is not registered again. -/
theorem LeadsWithContext.afterAll (leads : r.LeadsWithContext view)
    (hagain : contextTag ∉ registered (r.calls history)) : (r.afterAll history).LeadsWithContext view := by
  induction history generalizing r with
  | nil => exact leads
  | cons change rest ih =>
    rw [calls, registered_append, List.mem_append, not_or] at hagain
    refine ih (leads.after fun call hcall hregisters htag => hagain.1 ?_) hagain.2
    simp [registered, hcall, hregisters, htag]

/-- The context component is the only one under its tag. -/
theorem LeadsWithContext.components (leads : r.LeadsWithContext view) (formed : r.WellFormed) :
    ∃ dataModel rest, r.components = ⟨Component.viewOf view, contextTag, dataModel⟩ :: rest ∧
      ∀ c ∈ rest, c.tag ≠ .text contextTag := by
  obtain ⟨dataModel, rest, hentries⟩ := leads
  refine ⟨dataModel, rest.map (·.2), by rw [Registry.components, hentries]; rfl, ?_⟩
  intro c hc htag
  obtain ⟨entry, hmem, rfl⟩ := List.mem_map.1 hc
  have own : entry.2.tag = .text entry.1 := formed.own entry (hentries ▸ List.mem_cons_of_mem _ hmem)
  have same : entry.1 = contextTag := Value.text.inj (own.symm.trans htag)
  have distinct := formed.distinct
  rw [tags, hentries, Assoc.keys, List.map_cons, List.nodup_cons] at distinct
  have again : entry.1 ∈ rest.map (·.1) := List.mem_map_of_mem hmem
  rw [same] at again
  exact distinct.1 again

theorem contextView_after (hviews : ∀ view, change ≠ .setContextView view) :
    (r.after change).contextView = r.contextView := by
  cases hchange : r.change change with
  | error e => rw [after_of_error hchange]
  | ok result =>
    obtain ⟨changed, answered⟩ := result
    rw [after_of_ok hchange]
    rcases change_eq_ok hchange with ⟨c, tag, -, -, -, -, -, rfl⟩ | ⟨c, tag, dataModel, -, -, -, rfl⟩ |
      ⟨-, ⟨tagPrefix, -, rfl⟩ | ⟨view, heq, -⟩⟩
    · rfl
    · rfl
    · rfl
    · exact absurd heq (hviews view)

theorem contextView_afterAll (hviews : ∀ view, .setContextView view ∉ history) :
    (r.afterAll history).contextView = r.contextView := by
  induction history generalizing r with
  | nil => rfl
  | cons change rest ih =>
    have hfirst : (r.after change).contextView = r.contextView :=
      contextView_after fun view heq => hviews view (heq ▸ List.mem_cons_self)
    have hrest : ((r.after change).afterAll rest).contextView = (r.after change).contextView :=
      ih fun view hmem => hviews view (List.mem_cons_of_mem _ hmem)
    exact hrest.trans hfirst

/-- What an empty registry holds to which the context component was added. -/
theorem addContext_eq_ok {tagPrefix contextView : Value}
    (h : (empty tagPrefix contextView).addContext view = .ok r) :
    r.LeadsWithContext view ∧ r.WellFormed ∧ r.contextView = contextView ∧ Text.strip view.toList ≠ [] := by
  have formed := (wellFormed_empty tagPrefix contextView).after (.add view (some (.text contextTag)) none)
  cases hmake : Component.make view (some (.text contextTag)) none with
  | error e => simp [addContext, add, hmake, Except.map] at h
  | ok c =>
    obtain ⟨hview, hne, hmodel, htag, -⟩ := Component.make_eq_ok hmake
    have hvalid : validateTag c.tag (some c.view) = .ok contextTag :=
      validateTag_eq_ok_iff.2 ⟨htag, by decide +kernel⟩
    have hadd : (empty tagPrefix contextView).add view (some (.text contextTag)) none =
        .ok ({ empty tagPrefix contextView with entries := [(contextTag, c)] }, c) := by
      simp [add, hmake, register, hvalid, Except.map, empty, Assoc.insert]
    rw [addContext, hadd] at h
    cases h
    refine ⟨⟨none, [], ?_⟩, ?_, rfl, hne⟩
    · obtain ⟨view, tag, dataModel⟩ := c
      cases hview
      cases hmodel
      cases htag
      rfl
    · rw [after, change, hadd] at formed
      exact formed

/-- A new registry with the context component. -/
theorem new_eq_ok {tagPrefix : Option String} (h : Registry.new tagPrefix true view = .ok r) :
    r.LeadsWithContext view ∧ r.WellFormed ∧ r.contextView = .text view := by
  obtain ⟨leads, formed, hview, -⟩ := addContext_eq_ok h
  exact ⟨leads, formed, hview⟩

end Registry

namespace Settings

open Registry (Change)

variable {fields context : Fields} {otherPrefix : Option String} {values : List Value}
  {r bare built : Registry} {compiler : Compiler}

/-- The changes that add described components. -/
def additions (values : List Value) : List Change :=
  values.filterMap fun v =>
    match Entry.ofValue v with
    | .ok entry => some (.add entry.view entry.tag entry.dataModel)
    | .error _ => none

/-- Registering described components is a history of additions. -/
theorem registerFrom_eq_ok {position : Nat} (h : (registerFrom r position values).result = .ok built) :
    r.afterAll (additions values) = built := by
  induction values generalizing r position with
  | nil => exact Except.ok.inj h
  | cons v rest ih =>
    rw [registerFrom] at h
    cases hentry : Entry.ofValue v with
    | error e => rw [hentry] at h; cases h
    | ok entry =>
      simp only [hentry] at h
      cases hadd : r.add entry.view entry.tag entry.dataModel with
      | error e => rw [hadd] at h; cases h
      | ok added =>
        obtain ⟨extended, component⟩ := added
        have hrest : (registerFrom extended (position + 1) rest).result = .ok built := by
          simp only [hadd] at h
          split at h
          · exact h
          · exact h
        have hafter : r.after (.add entry.view entry.tag entry.dataModel) = extended := by
          simp [Registry.after, Registry.change, hadd, Except.map]
        have hlist : additions (v :: rest) =
            .add entry.view entry.tag entry.dataModel :: additions rest := by
          simp [additions, hentry]
        rw [hlist, Registry.afterAll_cons, hafter]
        exact ih hrest

theorem viewText_eq_ok {v : Value} {view : String} (h : viewText v = .ok view) (hne : view ≠ "") :
    v = .text view := by
  unfold viewText at h
  split at h
  · cases h
    rfl
  · split at h
    · cases h
    · cases h
      exact absurd rfl hne

/-- The bare registry of settings with a context holds the context component. -/
theorem bareRegistry_eq_ok (hcontext : contextSettings fields = .ok context)
    (henabled : hasContext context = true) (h : bareRegistry fields otherPrefix = .ok bare) :
    ∃ view, (contextSpelling context).contextView = .text view ∧ bare.LeadsWithContext view ∧
      bare.WellFormed := by
  rw [bareRegistry, hcontext] at h
  have hadd : ((viewText (contextSpelling context).contextView).mapError Failure.shape >>= fun view =>
      ((Registry.empty (tagPrefix fields otherPrefix) (contextSpelling context).contextView).addContext
        view).mapError Failure.registration) = .ok bare := by
    rw [← h]
    exact (if_pos henabled).symm
  cases hview : viewText (contextSpelling context).contextView with
  | error e => rw [hview] at hadd; cases hadd
  | ok view =>
    rw [hview] at hadd
    obtain ⟨leads, formed, -, hne⟩ := Registry.addContext_eq_ok (Failure.eq_ok_of_mapError hadd)
    refine ⟨view, viewText_eq_ok hview fun hempty => hne ?_, leads, formed⟩
    rw [hempty]
    rfl

/-- What a compiler from settings is made of. -/
theorem compiler_eq_ok (h : (Settings.compiler fields otherPrefix).result = .ok compiler) :
    ∃ bare values spelling, bareRegistry fields otherPrefix = .ok bare ∧
      componentValues fields = .ok values ∧ Settings.spelling fields = .ok spelling ∧
      compiler = .ofRegistry (bare.afterAll (additions values)) none (some spelling) := by
  obtain ⟨built, hregistry, h⟩ := Logged.bind_result_eq_ok h
  obtain ⟨spelling, hspelling, h⟩ := Logged.bind_result_eq_ok h
  obtain ⟨bare, hbare, hregistry⟩ := Logged.bind_result_eq_ok hregistry
  obtain ⟨values, hvalues, hregistry⟩ := Logged.bind_result_eq_ok hregistry
  refine ⟨bare, values, spelling, hbare, Failure.eq_ok_of_mapError hvalues,
    Failure.eq_ok_of_mapError hspelling, ?_⟩
  rw [registerFrom_eq_ok hregistry]
  exact (Except.ok.inj h).symm

end Settings

namespace Compiler

/-- A compiler with the context component of a context view, whose tag was not registered again: one on a
registry and the context view that this keeps, or one from settings. -/
inductive MadeWithContext (view : String) : Compiler → Prop where
  | ofRegistry {tagPrefix : Option String} {r₀ : Registry} {history : List Registry.Change}
      (hnew : Registry.new tagPrefix true view = .ok r₀)
      (hviews : ∀ other, .setContextView other ∉ history)
      (hagain : contextTag ∉ Registry.registered (r₀.calls history))
      (otherPrefix : Option String) (stages : List Stage) :
      MadeWithContext view { Compiler.ofRegistry (r₀.afterAll history) otherPrefix none with stages }
  | ofSettings {fields context : Fields} {otherPrefix : Option String} {bare : Registry}
      {values : List Value} {compiler : Compiler}
      (hcontext : Settings.contextSettings fields = .ok context)
      (henabled : Settings.hasContext context = true)
      (hview : (Settings.contextSpelling context).contextView = .text view)
      (hbare : Settings.bareRegistry fields otherPrefix = .ok bare)
      (hvalues : Settings.componentValues fields = .ok values)
      (hagain : contextTag ∉ Registry.registered (bare.calls (Settings.additions values)))
      (hbuilt : (Settings.compiler fields otherPrefix).result = .ok compiler) :
      MadeWithContext view compiler

/-- Whatever the prefix, the default settings give a compiler for the context component alone. -/
theorem exists_madeWithContext_of_defaults (start : String) :
    ∃ compiler, (Settings.compiler Settings.defaults (some start)).result = .ok compiler ∧
      compiler.tagPrefix = .text start ∧
      compiler.components = [⟨defaultContextView, contextTag, none⟩] ∧
      MadeWithContext defaultContextView compiler := by
  let spelling : Directive.Spelling := {}
  let bare : Registry :=
    ⟨(Value.text start).orEmpty, spelling.contextView, [(contextTag, ⟨defaultContextView, contextTag, none⟩)]⟩
  have hbuilt : (Settings.compiler Settings.defaults (some start)).result =
      .ok (.ofRegistry bare none (some spelling)) := rfl
  exact ⟨_, hbuilt, Registry.orEmpty_text start, rfl,
    @MadeWithContext.ofSettings defaultContextView Settings.defaults
      [("enabled", .bool true), ("view", spelling.contextView), ("stack", spelling.contextStack)]
      (some start) bare [] _ rfl rfl rfl rfl rfl List.not_mem_nil hbuilt⟩

/-- However a compiler was made, the context component comes first and all tags are accepted. -/
theorem MadeWithContext.leads {compiler : Compiler} {view : String}
    (made : MadeWithContext view compiler) :
    (∃ dataModel rest, compiler.components = ⟨Component.viewOf view, contextTag, dataModel⟩ :: rest ∧
      ∀ c ∈ rest, c.tag ≠ .text contextTag) ∧
    compiler.spelling.contextView = .text view ∧ ∀ c ∈ compiler.components, c.HasTag := by
  cases made with
  | @ofRegistry tagPrefix r₀ history hnew hviews hagain otherPrefix stages =>
    obtain ⟨leads, formed, hview⟩ := Registry.new_eq_ok hnew
    have later := formed.afterAll history
    exact ⟨(leads.afterAll hagain).components later, (Registry.contextView_afterAll hviews).trans hview,
      fun c hc => later.hasTag hc⟩
  | @ofSettings fields context otherPrefix bare values compiler hcontext henabled hview hbare hvalues hagain
      hbuilt =>
    obtain ⟨bare', values', spelling, hbare', hvalues', hspelling, rfl⟩ := Settings.compiler_eq_ok hbuilt
    obtain rfl : bare = bare' := Except.ok.inj (hbare.symm.trans hbare')
    obtain rfl : values = values' := Except.ok.inj (hvalues.symm.trans hvalues')
    have hspelled : spelling = Settings.contextSpelling context := by
      rw [Settings.spelling, hcontext] at hspelling
      exact (Except.ok.inj hspelling).symm
    obtain ⟨view', hview', leads, formed⟩ := Settings.bareRegistry_eq_ok hcontext henabled hbare
    obtain rfl : view = view' := Value.text.inj (hview.symm.trans hview')
    have later := formed.afterAll (Settings.additions values)
    exact ⟨(leads.afterAll hagain).components later, by rw [hspelled]; exact hview,
      fun c hc => later.hasTag hc⟩

end Compiler

end ComponentTags
