import ComponentTags.Proofs.KeptSettings
import ComponentTags.Proofs.RegisteredContext

/-!
# Registries from valid settings

Settings that the rules admit have the shapes that a registry is built from, so that the texts in them alone
decide whether it is built. A component that is refused is reported with its position. A context view of
blanks only is admitted too, but names no view; it ends the building with the refusal itself, which is no
problem of the settings.
-/

namespace ComponentTags

namespace Settings

open Registry (Change)

variable {fields context : Fields} {otherPrefix : Option String} {values before after : List Value}
  {v : Value} {r bare built : Registry} {cause : RegistrationError}

/-! ## The context -/

/-- The context is registered, and the view that is set for it has blanks only. -/
def HasBlankContext (fields : Fields) : Prop :=
  (Value.object fields).atPath? ["context", "enabled"] ≠ some (.bool false) ∧
    ∃ view, (Value.object fields).atPath? ["context", "view"] = some (.text view) ∧
      Text.strip view.toList = []

theorem atPath?_pair (fields : Fields) (outer inner : String) :
    (Value.object fields).atPath? [.text outer, .text inner] =
      (Assoc.get? fields outer).bind fun v => v.get? inner := by
  simp only [Value.atPath?_cons, Value.atPath?_nil, Option.bind_fun_some]
  rfl

/-- The context settings of admitted settings are those of a context. -/
theorem Admitted.contextSettings_eq_ok (admitted : Admitted fields) :
    ∃ context, contextSettings fields = .ok context ∧ Schema.context.Admits (.object context) ∧
      ∀ key : String, (Value.object fields).atPath? ["context", key] = Assoc.get? context key := by
  cases hcontext : Assoc.get? fields "context" with
  | none =>
    refine ⟨[], by rw [contextSettings, hcontext], ?_, fun key => by rw [atPath?_pair, hcontext]; rfl⟩
    simp [Schema.context, Schema.Admits, Schema.admitsFields_iff, Assoc.get?, Assoc.keys]
  | some v =>
    obtain ⟨context, rfl, hadmits⟩ := admitted.context_is_object hcontext
    exact ⟨context, by rw [contextSettings, hcontext], hadmits,
      fun key => by rw [atPath?_pair, hcontext]; rfl⟩

/-- The context view that holds for admitted settings is a text, and not the empty one. -/
theorem contextView_of_context (h : Schema.context.Admits (.object context)) :
    ∃ view, (contextSpelling context).contextView = .text view ∧ view ≠ "" := by
  unfold contextSpelling
  cases hview : Assoc.get? context "view" with
  | none => exact ⟨defaultContextView, rfl, by decide⟩
  | some v =>
    obtain ⟨view, rfl, hne⟩ := Schema.label_admits_iff.1 (Schema.property_admits _ h (by simp) hview)
    exact ⟨view, rfl, hne⟩

theorem hasContext_iff_of_context (h : Schema.context.Admits (.object context)) :
    hasContext context = true ↔ Assoc.get? context "enabled" ≠ some (.bool false) := by
  unfold hasContext
  cases henabled : Assoc.get? context "enabled" with
  | none => simp
  | some v =>
    obtain ⟨⟨kind, hkind, isBool⟩, -⟩ :=
      Schema.property_admits (.atom [.bool] 0) h (by simp) henabled
    cases List.mem_singleton.1 hkind
    cases v with
    | bool b => simp [Value.isSet]
    | null | int | float | moment | text | list | object => cases isBool

/-- A context view that is set to blanks is the one that counts. -/
theorem hasBlankContext_iff {view : String}
    (hpath : ∀ key : String, (Value.object fields).atPath? ["context", key] = Assoc.get? context key)
    (hcontext : Schema.context.Admits (.object context))
    (hview : (contextSpelling context).contextView = .text view) :
    HasBlankContext fields ↔ hasContext context = true ∧ Text.strip view.toList = [] := by
  rw [HasBlankContext, hpath "enabled", hpath "view", hasContext_iff_of_context hcontext]
  refine and_congr_right fun _ => ?_
  unfold contextSpelling at hview
  cases hset : Assoc.get? context "view" with
  | none =>
    rw [hset] at hview
    obtain rfl : defaultContextView = view := Value.text.inj hview
    simp [show Text.strip defaultContextView.toList ≠ [] by decide +kernel]
  | some v =>
    rw [hset] at hview
    obtain rfl : v = .text view := hview
    simp

/-- A registry without components is made of admitted settings unless the context view is blank. -/
theorem bareRegistry_of_admitted (admitted : Admitted fields) (otherPrefix : Option String) :
    HasBlankContext fields ∧ bareRegistry fields otherPrefix = .error (.registration .emptyView) ∨
      ¬ HasBlankContext fields ∧ ∃ bare, bareRegistry fields otherPrefix = .ok bare ∧
        bare.tagPrefix = (tagPrefix fields otherPrefix).orEmpty := by
  obtain ⟨context, hcontext, hadmits, hpath⟩ := admitted.contextSettings_eq_ok
  obtain ⟨view, hview, hne⟩ := contextView_of_context hadmits
  let empty := Registry.empty (tagPrefix fields otherPrefix) (contextSpelling context).contextView
  have viewed : viewText (contextSpelling context).contextView = .ok view := by
    rw [hview]
    rfl
  have steps : bareRegistry fields otherPrefix = if hasContext context = true then
      (empty.addContext view).mapError .registration else .ok empty := by
    rw [bareRegistry, hcontext]
    change (if hasContext context = true then
      ((viewText (contextSpelling context).contextView).mapError Failure.shape >>= fun view =>
        (empty.addContext view).mapError Failure.registration) else _) = _
    rw [viewed]
    rfl
  rw [hasBlankContext_iff hpath hadmits hview, steps]
  cases hasContext context with
  | false => exact .inr ⟨by simp, empty, rfl, rfl⟩
  | true =>
    have hmake := Component.make_of_isTag (show isTag contextTag.toList = true by decide +kernel) view none
    by_cases hstripped : Text.strip view.toList = []
    · rw [if_pos hstripped] at hmake
      refine .inl ⟨⟨rfl, hstripped⟩, ?_⟩
      rw [if_pos rfl, Registry.addContext, Registry.add_of_make_error hmake]
      rfl
    · rw [if_neg hstripped] at hmake
      refine .inr ⟨fun h => hstripped h.2, ?_⟩
      rw [if_pos rfl, Registry.addContext, Registry.add_of_make hmake]
      exact ⟨_, rfl, rfl⟩

/-! ## The components -/

/-- A value describes a component that can be registered. -/
def Registrable (v : Value) : Prop :=
  ∃ entry c, Entry.ofValue v = .ok entry ∧ Component.make entry.view entry.tag entry.dataModel = .ok c

/-- A value describes a component that is refused. -/
def RefusedFor (v : Value) (cause : RegistrationError) : Prop :=
  ∃ entry, Entry.ofValue v = .ok entry ∧
    Component.make entry.view entry.tag entry.dataModel = .error cause

/-- An admitted component description has the shape of one. -/
theorem ofValue_of_component (h : Schema.component.Admits v) : ∃ entry, Entry.ofValue v = .ok entry := by
  obtain ⟨fields, rfl, -, hrequired, -⟩ := id h
  obtain ⟨view, hview⟩ := hrequired "view" (by simp)
  obtain ⟨text, rfl, -⟩ := Schema.label_admits_iff.1 (Schema.property_admits _ h (by simp) hview)
  simp only [Entry.ofValue, hview]
  exact ⟨_, rfl⟩

/-- Admitted settings list descriptions of components. -/
theorem Admitted.componentValues_eq_ok (admitted : Admitted fields) :
    ∃ items, componentValues fields = .ok items ∧ ∀ v ∈ items, ∃ entry, Entry.ofValue v = .ok entry := by
  unfold componentValues
  cases hitems : Assoc.get? fields "components" with
  | none => exact ⟨[], rfl, by simp⟩
  | some v =>
    obtain ⟨items, rfl, hadmits⟩ := admitted.components_are_listed hitems
    exact ⟨items, rfl, fun v hv => ofValue_of_component (hadmits v hv)⟩

/-- Either all described components are registered, or the first one that is refused ends it. -/
theorem registerFrom_of_described (described : ∀ v ∈ values, ∃ entry, Entry.ofValue v = .ok entry)
    (r : Registry) (position : Nat) :
    ((∀ v ∈ values, Registrable v) ∧ ∃ built, (registerFrom r position values).result = .ok built) ∨
      ∃ before v after cause, values = before ++ v :: after ∧ (∀ u ∈ before, Registrable u) ∧
        RefusedFor v cause ∧ (registerFrom r position values).result =
          .error (.settings (.invalidComponent (position + before.length) cause)) := by
  induction values generalizing r position with
  | nil => exact .inl ⟨by simp, r, rfl⟩
  | cons v rest ih =>
    obtain ⟨⟨entry, hentry⟩, hrest⟩ := List.forall_mem_cons.1 described
    cases hmake : Component.make entry.view entry.tag entry.dataModel with
    | error cause =>
      refine .inr ⟨[], v, rest, cause, rfl, by simp, ⟨entry, hentry, hmake⟩, ?_⟩
      simp only [registerFrom, hentry, Registry.add_of_make_error hmake]
      rfl
    | ok c =>
      have registrable : Registrable v := ⟨entry, c, hentry, hmake⟩
      have step : (registerFrom r position (v :: rest)).result = (registerFrom
          { r with entries := r.entries.insert c.tag.plain c } (position + 1) rest).result := by
        simp only [registerFrom, hentry, Registry.add_of_make hmake]
        split <;> rfl
      rw [step]
      rcases ih hrest { r with entries := r.entries.insert c.tag.plain c } (position + 1) with
        ⟨hall, hbuilt⟩ | ⟨before, u, after, cause, rfl, hbefore, hrefused, hresult⟩
      · exact .inl ⟨List.forall_mem_cons.2 ⟨registrable, hall⟩, hbuilt⟩
      · refine .inr ⟨v :: before, u, after, cause, rfl, List.forall_mem_cons.2 ⟨registrable, hbefore⟩,
          hrefused, ?_⟩
        rw [hresult, List.length_cons, Nat.add_assoc, Nat.add_comm 1]

/-- What building a registry from admitted settings ends with. -/
theorem registry_of_admitted (admitted : Admitted fields) (otherPrefix : Option String) :
    HasBlankContext fields ∧
        (registry fields otherPrefix).result = .error (.registration .emptyView) ∨
      ¬ HasBlankContext fields ∧ ∃ items, componentValues fields = .ok items ∧
        ((∃ bare, bareRegistry fields otherPrefix = .ok bare ∧ (∀ v ∈ items, Registrable v) ∧
            (registry fields otherPrefix).result = .ok (bare.afterAll (additions items))) ∨
          ∃ before v after cause, items = before ++ v :: after ∧ (∀ u ∈ before, Registrable u) ∧
            RefusedFor v cause ∧ (registry fields otherPrefix).result =
              .error (.settings (.invalidComponent before.length cause))) := by
  obtain ⟨items, hitems, described⟩ := admitted.componentValues_eq_ok
  rcases bareRegistry_of_admitted admitted otherPrefix with ⟨hblank, hbare⟩ | ⟨hcontext, bare, hbare, -⟩
  · refine .inl ⟨hblank, ?_⟩
    rw [registry, hbare]
    rfl
  · have steps : (registry fields otherPrefix).result = (registerFrom bare 0 items).result := by
      rw [registry, hbare, hitems]
      rfl
    refine .inr ⟨hcontext, items, hitems, ?_⟩
    rw [steps]
    rcases registerFrom_of_described described bare 0 with
      ⟨hall, built, hbuilt⟩ | ⟨before, v, after, cause, hsplit, hbefore, hrefused, hresult⟩
    · exact .inl ⟨bare, hbare, hall, by rw [hbuilt, registerFrom_eq_ok hbuilt]⟩
    · exact .inr ⟨before, v, after, cause, hsplit, hbefore, hrefused, by rw [hresult, Nat.zero_add]⟩

namespace Session

variable {s : Session}

/-- A session that keeps settings answers with the registry that they describe. -/
theorem answer_registry_of_kept [Services] (hkept : s.kept = some fields) (otherPrefix : Option String) :
    (s.answer (.registry otherPrefix)).result = (registry fields otherPrefix).result.map .registry := by
  rw [answer, build_of_kept hkept]
  cases hresult : (registry fields otherPrefix).result with
  | error e => rw [Logged.bind_result_error hresult]; rfl
  | ok r => rw [Logged.bind_result_ok hresult]; rfl

/-- Under a checker that respects schemas, a session that keeps valid settings answers with a registry or with a problem of the settings exactly if
the context view is not blank. It answers with the registry of all described components if none of them is
refused; otherwise the problem names the first one that is. Under a blank context view the refusal of that view
is the answer, whatever the components are. -/
theorem answer_registry_of_valid [Services] (respects : Services.RespectsSchemas)
    (hkept : s.kept = some fields) (valid : Valid fields) (otherPrefix : Option String) :
    (((∃ r, (s.answer (.registry otherPrefix)).result = .ok (.registry r)) ∨
        ∃ e, (s.answer (.registry otherPrefix)).result = .error e ∧
          e.problem?.map (·.kind) = some .settings) ↔ ¬ HasBlankContext fields) ∧
    (HasBlankContext fields →
      (s.answer (.registry otherPrefix)).result = .error (.registration .emptyView)) ∧
    (¬ HasBlankContext fields → ∃ items, componentValues fields = .ok items ∧
      ((∃ bare, bareRegistry fields otherPrefix = .ok bare ∧ (∀ v ∈ items, Registrable v) ∧
          (s.answer (.registry otherPrefix)).result =
            .ok (.registry (bare.afterAll (additions items)))) ∨
        ∃ before v after cause, items = before ++ v :: after ∧ (∀ u ∈ before, Registrable u) ∧
          RefusedFor v cause ∧ (s.answer (.registry otherPrefix)).result =
            .error (.settings (.invalidComponent before.length cause)))) := by
  rw [answer_registry_of_kept hkept]
  rcases registry_of_admitted (valid.admitted respects) otherPrefix with ⟨hblank, hresult⟩ | ⟨hcontext, items, hitems, hresult⟩
  · rw [hresult]
    refine ⟨iff_of_false ?_ (fun h => h hblank), fun _ => rfl, fun h => absurd hblank h⟩
    rintro (⟨r, hr⟩ | ⟨e, he, hkind⟩)
    · cases hr
    · cases he
      cases hkind
  · rcases hresult with ⟨bare, hbare, hall, hbuilt⟩ | ⟨before, v, after, cause, hsplit, hbefore, hrefused, herror⟩
    · rw [hbuilt]
      exact ⟨iff_of_true (.inl ⟨_, rfl⟩) hcontext, fun h => absurd h hcontext,
        fun _ => ⟨items, hitems, .inl ⟨bare, hbare, hall, rfl⟩⟩⟩
    · rw [herror]
      exact ⟨iff_of_true (.inr ⟨_, rfl, rfl⟩) hcontext, fun h => absurd h hcontext,
        fun _ => ⟨items, hitems, .inr ⟨before, v, after, cause, hsplit, hbefore, hrefused, rfl⟩⟩⟩

/-- A session that keeps settings. -/
def keeping (fields : Fields) : Session :=
  ⟨⟨⟨"/", []⟩, none⟩, ⟨⟨"/", []⟩, [], []⟩, [], some fields⟩

/-- Settings with two components, of which the second one has a tag that is refused. -/
def spacedTag : Fields :=
  [("components", .list [.object [("view", "components.card"), ("tag", "card")],
    .object [("view", " shop::alert "), ("tag", "ca rd")]])]

theorem answer_registry_of_spaced_tag :
    Services.RespectsSchemas ∧ Valid spacedTag ∧ ¬ HasBlankContext spacedTag ∧
      ((keeping spacedTag).answer (.registry (some "x-"))).result =
        .error (.settings (.invalidComponent 1 (.invalidTag "ca rd" (some "shop::alert")))) ∧
      ((∃ r, ((keeping spacedTag).answer (.registry (some "x-"))).result = .ok (.registry r)) ∨
        ∃ e, ((keeping spacedTag).answer (.registry (some "x-"))).result = .error e ∧
          e.problem?.map (·.kind) = some .settings) := by
  have valid : Valid spacedTag := by
    rw [valid_iff_admitted, Admitted]
    simp [Schema.settings, Schema.component, Schema.Admits, Schema.admitsFields_iff, Schema.label_admits_iff,
      spacedTag, Assoc.get?, Assoc.keys, or_imp, forall_and]
  have spoken : ¬ HasBlankContext spacedTag := by
    rintro ⟨-, view, hview, -⟩
    cases hview
  refine ⟨respectsSchemas_usual, valid, spoken, rfl, ?_⟩
  exact (answer_registry_of_valid respectsSchemas_usual rfl valid (some "x-")).1.2 spoken

/-- Settings with a blank context view. -/
def blankContext : Fields :=
  [("context", .object [("view", " ")])]

/-- A blank context view meets the rules, and the registry is refused for a reason that is no problem of the
settings. -/
theorem answer_registry_of_blank_context :
    Valid blankContext ∧ ∃ e, ((keeping blankContext).answer (.registry none)).result = .error e ∧
      e.problem?.map (·.kind.code) = some "ComponentRegistrationError" := by
  have valid : Valid blankContext := by
    rw [valid_iff_admitted, Admitted]
    simp [Schema.settings, Schema.context, Schema.Admits, Schema.admitsFields_iff, Schema.label_admits_iff,
      blankContext, Assoc.get?, Assoc.keys]
  exact ⟨valid, .registration .emptyView, rfl, rfl⟩

end Session

end Settings

end ComponentTags
