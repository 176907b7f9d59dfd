import ComponentTags.Component.Registry.Procedure
import ComponentTags.Proofs.Refusal

/-!
# Histories of a registry

What a registry holds can be read off the calls that were carried out: the tags in the order of their first
registration, and under each tag the component of the last call for it. Refused calls leave no trace. Since
every way to register a component checks its tag, compilers on a registry fail for the prefix alone.
-/

namespace ComponentTags

namespace Registry

/-! ## Calls -/

/-- A call that was carried out: the tag that it was for, the component that it answered, and whether it
registered the component or gave it another data model. -/
structure Call where
  tag : String
  component : Component
  registers : Bool

/-- The tag that a change is for which answers a component. -/
def Change.tagFor (c : Component) : Change → String
  | .setDataModel tag _ => tag
  | .add .. | .register _ | .setTagPrefix _ | .setContextView _ => c.tag.plain

def Change.registers : Change → Bool
  | .add .. | .register _ => true
  | .setDataModel .. | .setTagPrefix _ | .setContextView _ => false

/-- The call that a change is, if it is about a component and not refused. -/
def call? (r : Registry) (change : Change) : Option Call :=
  match r.change change with
  | .ok (_, some c) => some ⟨change.tagFor c, c, change.registers⟩
  | .ok (_, none) | .error _ => none

/-- The calls that are carried out in a history of changes. -/
def calls (r : Registry) : List Change → List Call
  | [] => []
  | change :: rest => (r.call? change).toList ++ (r.after change).calls rest

/-- The tags of registrations, in order. -/
def registered (calls : List Call) : List String :=
  (calls.filter (·.registers)).map (·.tag)

theorem registered_append (first later : List Call) :
    registered (first ++ later) = registered first ++ registered later := by
  simp only [registered, List.filter_append, List.map_append]

/-- The component of the last call for a tag. -/
def lastFor? (tag : String) (calls : List Call) : Option Component :=
  (calls.reverse.find? (·.tag == tag)).map (·.component)

/-- The changes that a new registry starts with. -/
def initial (withContext : Bool) (contextView : String) : List Change :=
  if withContext then [.add contextView (some (.text contextTag)) none] else []

/-- No tag comes twice, every component stands under its own tag, and that is accepted. -/
structure WellFormed (r : Registry) : Prop where
  distinct : r.tags.Nodup
  own : ∀ entry ∈ r.entries, entry.2.tag = .text entry.1
  accepted : ∀ tag ∈ r.tags, isTag tag.toList = true

variable {r r₀ changed : Registry} {change : Change} {c : Component} {answered : Option Component}
  {call : Call} {tag : String}

/-- What a change does that is not refused: it registers a component, gives a registered one another data
model, or leaves the components alone and changes the prefix or the context view. -/
theorem change_eq_ok (h : r.change change = .ok (changed, answered)) :
    (∃ c tag, answered = some c ∧ change.tagFor c = tag ∧ change.registers = true ∧
      c.tag = .text tag ∧ isTag tag.toList = true ∧
      changed = { r with entries := r.entries.insert tag c }) ∨
    (∃ c tag dataModel, answered = some (c.withDataModel dataModel) ∧
      change = .setDataModel tag dataModel ∧ r.get? tag = some c ∧
      changed = { r with entries := r.entries.insert tag (c.withDataModel dataModel) }) ∨
    (answered = none ∧ ((∃ tagPrefix, change = .setTagPrefix tagPrefix ∧ changed = r.setTagPrefix tagPrefix) ∨
      ∃ view, change = .setContextView view ∧ changed = { r with contextView := .text view })) := by
  have plain {c : Component} {tag : String} (h : c.tag = .text tag) : c.tag.plain = tag := by
    simp [h, Value.plain]
  cases change with
  | add view tag dataModel =>
    cases hmake : Component.make view tag dataModel with
    | error e => simp [Registry.change, add, hmake, Except.map] at h
    | ok c =>
      obtain ⟨-, -, -, -, s, htag, hs⟩ := Component.make_eq_ok hmake
      simp only [Registry.change, add, hmake, register, validateTag_eq_ok_iff.2 ⟨htag, hs⟩, Except.map,
        Except.ok.injEq, Prod.mk.injEq] at h
      exact .inl ⟨c, s, h.2.symm, plain htag, rfl, htag, hs, h.1.symm⟩
  | register c =>
    cases hvalid : validateTag c.tag (some c.view) with
    | error e => simp [Registry.change, register, hvalid, Except.map] at h
    | ok s =>
      obtain ⟨htag, hs⟩ := validateTag_eq_ok_iff.1 hvalid
      simp only [Registry.change, register, hvalid, Except.map, Except.ok.injEq, Prod.mk.injEq] at h
      exact .inl ⟨c, s, h.2.symm, plain htag, rfl, htag, hs, h.1.symm⟩
  | setDataModel tag dataModel =>
    cases hget : r.get? tag with
    | none => simp [Registry.change, setDataModel, hget, Except.map] at h
    | some c =>
      simp only [Registry.change, setDataModel, hget, Except.map, Except.ok.injEq, Prod.mk.injEq] at h
      exact .inr (.inl ⟨c, tag, dataModel, h.2.symm, rfl, hget, h.1.symm⟩)
  | setTagPrefix tagPrefix =>
    simp only [Registry.change, Except.ok.injEq, Prod.mk.injEq] at h
    exact .inr (.inr ⟨h.2.symm, .inl ⟨tagPrefix, rfl, h.1.symm⟩⟩)
  | setContextView view =>
    simp only [Registry.change, Except.ok.injEq, Prod.mk.injEq] at h
    exact .inr (.inr ⟨h.2.symm, .inr ⟨view, rfl, h.1.symm⟩⟩)

/-- After a change its call, if it is one, has written its component under its tag. -/
theorem entries_after (r : Registry) (change : Change) :
    (r.after change).entries = match r.call? change with
      | some call => r.entries.insert call.tag call.component
      | none => r.entries := by
  cases hchange : r.change change with
  | error e => simp [after, call?, hchange]
  | ok result =>
    obtain ⟨changed, answered⟩ := result
    rw [after_of_ok hchange]
    rcases change_eq_ok hchange with ⟨c, tag, rfl, hfor, -, -, -, rfl⟩ |
      ⟨c, tag, dataModel, rfl, rfl, -, rfl⟩ | ⟨rfl, ⟨tagPrefix, rfl, rfl⟩ | ⟨view, rfl, rfl⟩⟩
    · simp [call?, hchange, hfor]
    · simp [call?, hchange, Change.tagFor]
    · simp [call?, hchange, setTagPrefix]
    · simp [call?, hchange]

/-- A call is for the tag of its component, and registers it or finds it registered. -/
theorem WellFormed.of_call? (formed : r.WellFormed) (h : r.call? change = some call) :
    call.component.tag = .text call.tag ∧ isTag call.tag.toList = true ∧
      (call.registers = false → call.tag ∈ r.tags) := by
  unfold call? at h
  split at h
  · rename_i changed answered hchange
    cases h
    rcases change_eq_ok hchange with ⟨c, tag, heq, hfor, hregisters, htag, hs, -⟩ |
      ⟨c, tag, dataModel, heq, rfl, hget, -⟩ | ⟨heq, -⟩
    · cases heq
      rw [hfor, hregisters]
      exact ⟨htag, hs, fun h => by cases h⟩
    · cases heq
      have hmem := Assoc.mem_of_get? hget
      have hin : tag ∈ r.tags := List.mem_map_of_mem hmem
      exact ⟨formed.own _ hmem, formed.accepted tag hin, fun _ => hin⟩
    · cases heq
  · cases h
  · cases h

theorem wellFormed_empty (tagPrefix contextView : Value) : (empty tagPrefix contextView).WellFormed where
  distinct := List.nodup_nil
  own := fun _ h => absurd h List.not_mem_nil
  accepted := fun _ h => absurd h List.not_mem_nil

/-- Every change keeps a registry well-formed, whether it is refused or not. -/
theorem WellFormed.after (formed : r.WellFormed) (change : Change) : (r.after change).WellFormed := by
  have hentries := entries_after r change
  cases hcall : r.call? change with
  | none =>
    simp only [hcall] at hentries
    constructor
    · rw [tags, hentries]
      exact formed.distinct
    · rw [hentries]
      exact formed.own
    · rw [tags, hentries]
      exact formed.accepted
  | some call =>
    obtain ⟨htag, hs, -⟩ := formed.of_call? hcall
    simp only [hcall] at hentries
    have htags : (r.after change).tags = if call.tag ∈ r.tags then r.tags else r.tags ++ [call.tag] := by
      rw [tags, hentries, Assoc.keys_insert]
      rfl
    constructor
    · rw [htags]
      split
      · exact formed.distinct
      · rename_i hnew
        have apart : ∀ a ∈ r.tags, ∀ b ∈ [call.tag], a ≠ b := by
          rintro a ha b hb rfl
          exact hnew (List.mem_singleton.1 hb ▸ ha)
        exact List.nodup_append.2 ⟨formed.distinct, by simp, apart⟩
    · rintro ⟨k, c⟩ hmem
      rw [hentries] at hmem
      rcases Assoc.eq_or_mem_of_mem_insert hmem with heq | hmem
      · cases heq
        exact htag
      · exact formed.own _ hmem
    · intro tag hmem
      rw [htags] at hmem
      split at hmem
      · exact formed.accepted tag hmem
      · rcases List.mem_append.1 hmem with hmem | hmem
        · exact formed.accepted tag hmem
        · rw [List.mem_singleton.1 hmem]
          exact hs

theorem WellFormed.afterAll (formed : r.WellFormed) (history : List Change) :
    (r.afterAll history).WellFormed := by
  induction history generalizing r with
  | nil => exact formed
  | cons change rest ih => exact ih (formed.after change)

theorem WellFormed.hasTag (formed : r.WellFormed) (h : c ∈ r.components) : c.HasTag := by
  obtain ⟨entry, hmem, rfl⟩ := List.mem_map.1 h
  exact ⟨entry.1, formed.own entry hmem, formed.accepted entry.1 (List.mem_map_of_mem hmem)⟩

/-! ## Runs -/

theorem afterAll_cons (r : Registry) (change : Change) (rest : List Change) :
    r.afterAll (change :: rest) = (r.after change).afterAll rest := rfl

/-- The tags come in the order of their first registration: another one and a change of the data model keep
the place of a tag. -/
theorem WellFormed.tags_afterAll (formed : r.WellFormed) (history : List Change) :
    (r.afterAll history).tags = (r.tags ++ registered (r.calls history)).eraseDups := by
  induction history generalizing r with
  | nil => simp [Registry.afterAll, calls, registered, eraseDups_of_nodup formed.distinct]
  | cons change rest ih =>
    have hentries := entries_after r change
    have hrest := ih (formed.after change)
    rw [afterAll_cons, hrest, calls]
    cases hcall : r.call? change with
    | none =>
      simp only [hcall] at hentries
      simp [tags, hentries]
    | some call =>
      obtain ⟨-, -, hknown⟩ := formed.of_call? hcall
      simp only [hcall] at hentries
      have htags : (r.after change).tags =
          if call.tag ∈ r.tags then r.tags else r.tags ++ [call.tag] := by
        rw [tags, hentries, Assoc.keys_insert]
        rfl
      cases hregisters : call.registers with
      | false =>
        rw [htags, if_pos (hknown hregisters)]
        simp [registered, hregisters]
      | true =>
        rw [htags]
        split
        · rename_i hmem
          simp [registered, hregisters, eraseDups_append_cons_of_mem hmem]
        · simp [registered, hregisters]

/-- Under a tag stands the component of the last call for it. -/
theorem get?_afterAll (r : Registry) (history : List Change) (tag : String) :
    (r.afterAll history).get? tag = (lastFor? tag (r.calls history)).or (r.get? tag) := by
  induction history generalizing r with
  | nil => rfl
  | cons change rest ih =>
    have hentries := entries_after r change
    rw [afterAll_cons, ih, calls]
    cases hcall : r.call? change with
    | none =>
      simp only [hcall] at hentries
      simp [get?, hentries]
    | some call =>
      simp only [hcall] at hentries
      have hget : (r.after change).get? tag =
          if call.tag = tag then some call.component else r.get? tag := by
        rw [get?, hentries, Assoc.get?_insert]
        rfl
      rw [hget]
      by_cases htag : call.tag = tag <;> simp [lastFor?, List.find?_append, htag]

theorem tagPrefix_after (r : Registry) (change : Change) :
    (r.after change).tagPrefix = r.tagPrefix ∨ ∃ start, (r.after change).tagPrefix = .text start := by
  cases hchange : r.change change with
  | error e => exact .inl (by rw [after_of_error hchange])
  | ok result =>
    obtain ⟨changed, answered⟩ := result
    rw [after_of_ok hchange]
    rcases change_eq_ok hchange with ⟨c, tag, -, -, -, -, -, rfl⟩ | ⟨c, tag, dataModel, -, -, -, rfl⟩ |
      ⟨-, ⟨tagPrefix, -, rfl⟩ | ⟨view, -, rfl⟩⟩
    · exact .inl rfl
    · exact .inl rfl
    · exact .inr ⟨tagPrefix.getD "", rfl⟩
    · exact .inl rfl

theorem orEmpty_text (s : String) : (Value.text s).orEmpty = .text s := by
  by_cases h : s = "" <;> simp [Value.orEmpty, Value.isSet, h]

theorem textual_afterAll (textual : ∃ start, r.tagPrefix = .text start) (history : List Change) :
    ∃ start, (r.afterAll history).tagPrefix = .text start := by
  induction history generalizing r with
  | nil => exact textual
  | cons change rest ih =>
    refine ih ?_
    rcases tagPrefix_after r change with hsame | htext
    · rw [hsame]
      exact textual
    · exact htext

/-- The steps of a history lead to the same registry as its changes. -/
theorem performAll_eq (r : Registry) (history : List Change) :
    r.performAll history = r.afterAll history := by
  induction history generalizing r with
  | nil => rfl
  | cons change rest ih =>
    have hstep : left (change.perform r) = r.after change := by
      rw [perform_eq, after]
      cases r.change change with
      | error e => rfl
      | ok result => rfl
    rw [performAll, List.foldl_cons, hstep]
    exact ih (r.after change)

/-- A new registry is an empty one after the changes that it starts with. -/
theorem afterAll_initial {tagPrefix : Option String} {withContext : Bool} {contextView : String}
    (h : Registry.new tagPrefix withContext contextView = .ok r₀) :
    (empty (.text (tagPrefix.getD "")) (.text contextView)).afterAll (initial withContext contextView) =
      r₀ := by
  cases withContext with
  | false => exact Except.ok.inj h
  | true =>
    simp only [Registry.new, addContext, if_true] at h
    cases hadd : (empty (.text (tagPrefix.getD "")) (.text contextView)).add contextView
        (some (.text contextTag)) none with
    | error e => simp [hadd, Except.map] at h
    | ok result =>
      simp only [hadd, Except.map, Except.ok.injEq] at h
      simp [initial, afterAll, after, Registry.change, hadd, Except.map, h]

/-- The calls by which a registry comes about that is made and then changed. -/
def lifetime (tagPrefix : Option String) (withContext : Bool) (contextView : String)
    (history : List Change) : List Call :=
  (empty (.text (tagPrefix.getD "")) (.text contextView)).calls (initial withContext contextView ++ history)

/-- What holds of a registry after any history of changes, refused ones included. It is well-formed; its
components come in the order in which their tags were first registered; under each tag stands the component
of the last call for it; its size is the number of tags that were registered; its steps come to the same, and
a refused change has written nothing. So no compilation on it fails under a prefix that is accepted. -/
theorem afterAll_of_new {tagPrefix : Option String} {withContext : Bool} {contextView : String}
    (h : Registry.new tagPrefix withContext contextView = .ok r₀) (history : List Change)
    (hr : r₀.afterAll history = r) :
    r.WellFormed ∧
    r.components.map (·.tag) =
      (registered (lifetime tagPrefix withContext contextView history)).eraseDups.map Value.text ∧
    (∀ tag, r.get? tag = lastFor? tag (lifetime tagPrefix withContext contextView history)) ∧
    r.size = (registered (lifetime tagPrefix withContext contextView history)).eraseDups.length ∧
    (r₀.performAll history = r ∧
      ∀ (change : Change) e written, change.perform r = .error e written → written = r) ∧
    (∃ start, r.tagPrefix = .text start) ∧
    ∀ (compiler : Compiler) (start : String), compiler.components = r.components →
      compiler.tagPrefix = .text start → isTagPrefix start.toList = true →
      ∀ text, ∃ found, compiler.compile text = .ok found := by
  have hinitial := afterAll_initial h
  have hlife : (empty (.text (tagPrefix.getD "")) (.text contextView)).afterAll
      (initial withContext contextView ++ history) = r := by
    rw [← hr, ← hinitial]
    exact List.foldl_append
  have start := wellFormed_empty (.text (tagPrefix.getD "")) (.text contextView)
  have formed : r.WellFormed := hlife ▸ start.afterAll _
  have htags : r.tags = (registered (lifetime tagPrefix withContext contextView history)).eraseDups := by
    have htags := start.tags_afterAll (initial withContext contextView ++ history)
    rw [hlife] at htags
    exact htags
  refine ⟨formed, ?_, ?_, ?_, ⟨?_, ?_⟩, ?_, ?_⟩
  · rw [← htags, tags, Assoc.keys, components, List.map_map, List.map_map]
    exact List.map_congr_left formed.own
  · intro tag
    have hget := get?_afterAll (empty (.text (tagPrefix.getD "")) (.text contextView))
      (initial withContext contextView ++ history) tag
    rw [hlife] at hget
    rw [hget]
    exact Option.or_none
  · rw [← htags, size, tags, Assoc.keys, List.length_map]
  · rw [performAll_eq, hr]
  · intro change e written hperform
    rw [perform_eq] at hperform
    split at hperform
    · cases hperform
    · cases hperform
      rfl
  · rw [← hlife]
    exact textual_afterAll ⟨_, orEmpty_text (tagPrefix.getD "")⟩ _
  · intro compiler start hcomponents hstart accepted text
    have tagged : ∀ c ∈ compiler.components, c.HasTag := by
      intro c hc
      rw [hcomponents] at hc
      exact formed.hasTag hc
    exact ⟨_, Compiler.compile_of_accepts (Compiler.accepts_of_hasTag hstart accepted tagged) text⟩

/-- A registry with the context component only. -/
def contextOnly : Registry :=
  ⟨"x-", "bladex::context", [("context", ⟨"bladex::context", "context", none⟩)]⟩

/-- Changes of which two are refused, and one registers a tag again that was given a data model. -/
def cardChanges : List Change :=
  [.add "components.card" (some "card") none, .add "components.alert" (some "a b") none,
    .register ⟨"components.alert", "alert", none⟩, .setDataModel "card" (some "App"),
    .add " other.card " (some "card") none, .setDataModel "missing" none, .setTagPrefix none]

/-- What they make of it. -/
def cardsRegistered : Registry :=
  ⟨"", "bladex::context", [("context", ⟨"bladex::context", "context", none⟩),
    ("card", ⟨"other.card", "card", none⟩), ("alert", ⟨"components.alert", "alert", none⟩)]⟩

theorem afterAll_of_new_cards :
    Registry.new (some "x-") true "bladex::context" = .ok contextOnly ∧
    contextOnly.afterAll cardChanges = cardsRegistered ∧ cardsRegistered.WellFormed ∧
    cardsRegistered.components.map (·.tag) =
      (registered (lifetime (some "x-") true "bladex::context" cardChanges)).eraseDups.map Value.text ∧
    cardsRegistered.get? "card" =
      lastFor? "card" (lifetime (some "x-") true "bladex::context" cardChanges) ∧
    ∃ found, (Compiler.ofRegistry cardsRegistered (some "x-") none).compile "<x-card/>" = .ok found := by
  have made : Registry.new (some "x-") true "bladex::context" = .ok contextOnly := rfl
  have changed : contextOnly.afterAll cardChanges = cardsRegistered := rfl
  obtain ⟨formed, inOrder, byTag, -, -, -, compiles⟩ := afterAll_of_new made cardChanges changed
  exact ⟨made, changed, formed, inOrder, byTag "card",
    compiles (Compiler.ofRegistry cardsRegistered (some "x-") none) "x-" rfl rfl (by decide +kernel)
      "<x-card/>"⟩

end Registry

end ComponentTags
