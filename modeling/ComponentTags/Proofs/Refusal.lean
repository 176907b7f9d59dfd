import ComponentTags.Proofs.Compilation

/-!
# Compilations that refuse a name

A stage checks the name of its component when it runs, on a text that other stages have rewritten. Still
the components and the prefix alone decide whether a compilation is refused, and why: the first component
whose name is refused is the one that the error names, with the first stage that looks for tags.
-/

namespace ComponentTags

namespace Component

/-- The component has a tag that is accepted. -/
def HasTag (c : Component) : Prop :=
  ∃ tag, c.tag = .text tag ∧ isTag tag.toList = true

/-- The component cannot be compiled under a prefix: its tag is not accepted, or the prefix is not. -/
def Offends (c : Component) (start : String) : Prop :=
  ¬ c.HasTag ∨ isTagPrefix start.toList = false

theorem tagText?_eq_none_iff {c : Component} : tagText? c.tag = none ↔ ¬ c.HasTag := by
  unfold HasTag tagText?
  split
  · rename_i tag htag
    simp [htag]
  · rename_i hother
    constructor
    · rintro - ⟨tag, htag, -⟩
      exact hother tag htag
    · exact fun _ => rfl

end Component

namespace Target

variable {t : Target} {start : String} {fault : NameFault}

theorem nameFault?_eq_none_iff (hstart : t.tagPrefix = .text start) :
    t.nameFault? = none ↔ ¬ t.component.Offends start := by
  unfold nameFault? Component.Offends
  rw [hstart, ← Component.tagText?_eq_none_iff]
  cases tagText? t.component.tag with
  | none => simp
  | some tag => simp

/-- A prefix is looked at only if the tag is accepted. -/
theorem nameFault?_eq_some (hstart : t.tagPrefix = .text start) (h : t.nameFault? = some fault) :
    fault = .invalidTag ∧ ¬ t.component.HasTag ∨
      fault = .invalidPrefix ∧ t.component.HasTag ∧ isTagPrefix start.toList = false := by
  unfold nameFault? at h
  rw [hstart] at h
  cases htag : tagText? t.component.tag with
  | none =>
    simp only [htag, Option.some.injEq] at h
    exact .inl ⟨h.symm, Component.tagText?_eq_none_iff.1 htag⟩
  | some tag =>
    have accepted : t.component.HasTag :=
      Classical.not_not.1 fun hnot => by simp [Component.tagText?_eq_none_iff.2 hnot] at htag
    simp only [htag] at h
    split at h
    · cases h
    · rename_i hrefused
      exact .inr ⟨(Option.some.inj h).symm, accepted, Bool.eq_false_iff.2 hrefused⟩

end Target

namespace Stage

/-- The stages that look for tags of a component. -/
def seeksTags (stage : Stage) : Bool :=
  stage != slot

theorem runs_iff {stage : Stage} {t : Target} :
    stage.Runs t ↔ (stage.seeksTags = true → t.nameFault? = none) := by
  cases stage <;> simp [Runs, seeksTags]

theorem run_of_nameFault? {stage : Stage} {t : Target} {fault : NameFault}
    (seeks : stage.seeksTags = true) (h : t.nameFault? = some fault) (s : List Char) :
    stage.run t s = .error ⟨fault, stage, t.component, t.tagPrefix⟩ := by
  cases stage with
  | slot => cases seeks
  | selfClosing | opening | closing => simp [run, Target.name, h, Except.map]

end Stage

namespace Compiler

variable {compiler : Compiler} {components before after : List Component} {c : Component}
  {stages : List Stage} {stage : Stage} {fault : NameFault} {start : String}

/-- The stages in front of the first one that looks for tags run, and that one is refused. -/
theorem runStages_of_nameFault? {t : Target} (hfault : t.nameFault? = some fault)
    (hstage : stages.find? Stage.seeksTags = some stage) (tally : Tally) (s : List Char) :
    runStages t stages tally s = .error ⟨fault, stage, t.component, t.tagPrefix⟩ := by
  induction stages generalizing tally s with
  | nil => cases hstage
  | cons first rest ih =>
    rw [runStages]
    cases hseeks : first.seeksTags with
    | true =>
      rw [List.find?_cons_of_pos hseeks, Option.some.injEq] at hstage
      subst hstage
      rw [Stage.run_of_nameFault? hseeks hfault]
    | false =>
      rw [List.find?_cons_of_neg (by simp [hseeks])] at hstage
      rw [Stage.run_of_runs (Stage.runs_iff.2 (by simp [hseeks]))]
      exact ih hstage _ _

/-- The components in front of the first one that is refused are compiled, and that one is refused. -/
theorem runComponents_of_nameFault? (accepted : compiler.Accepts before)
    (hfault : (compiler.target c).nameFault? = some fault)
    (hstage : compiler.stages.find? Stage.seeksTags = some stage) (s : List Char) :
    compiler.runComponents (before ++ c :: after) s =
      .error ⟨fault, stage, c, compiler.tagPrefix⟩ := by
  induction before generalizing s with
  | nil =>
    have refused := runStages_of_nameFault? hfault hstage [] s
    unfold target at refused
    simp only [List.nil_append, runComponents, refused]
  | cons first rest ih =>
    have hfirst : ∀ stage ∈ compiler.stages, stage.Runs (compiler.target first) :=
      fun stage _ => .inr (accepted first (by simp))
    have runs := runStages_of_runs hfirst [] s
    unfold target at runs
    have later := ih (fun d hd => accepted d (by simp [hd]))
      (rewriteStages (compiler.target first) compiler.stages s)
    unfold target at later
    simp only [List.cons_append, runComponents, runs, later, Except.map]

/-- Either all components are accepted, or one is the first that is not. -/
theorem accepts_or_refused (compiler : Compiler) (components : List Component) :
    compiler.Accepts components ∨
      ∃ before c after fault, components = before ++ c :: after ∧ compiler.Accepts before ∧
        (compiler.target c).nameFault? = some fault := by
  induction components with
  | nil => exact .inl fun _ hmem => absurd hmem List.not_mem_nil
  | cons c rest ih =>
    cases hfault : (compiler.target c).nameFault? with
    | some fault => exact .inr ⟨[], c, rest, fault, rfl, fun _ hmem => absurd hmem List.not_mem_nil, hfault⟩
    | none =>
      have front {others : List Component} (h : compiler.Accepts others) :
          compiler.Accepts (c :: others) := List.forall_mem_cons.2 ⟨hfault, h⟩
      rcases ih with hall | ⟨before, d, after, fault, rfl, haccepted, hd⟩
      · exact .inl (front hall)
      · exact .inr ⟨c :: before, d, after, fault, rfl, front haccepted, hd⟩

/-- A compilation succeeds, or the first refused component ends it at the first stage that looks for
tags. The text has no part in that. -/
theorem succeeds_or_refused (compiler : Compiler) :
    compiler.Succeeds compiler.components ∨
      ∃ before c after fault stage, compiler.components = before ++ c :: after ∧
        compiler.Accepts before ∧ (compiler.target c).nameFault? = some fault ∧
        compiler.stages.find? Stage.seeksTags = some stage ∧
        ∀ text, compiler.compile text = .error ⟨fault, stage, c, compiler.tagPrefix⟩ := by
  cases hstage : compiler.stages.find? Stage.seeksTags with
  | none =>
    have slots := List.find?_eq_none.1 hstage
    exact .inl fun c _ stage hmem => Stage.runs_iff.2 fun hseeks => absurd hseeks (slots stage hmem)
  | some stage =>
    rcases accepts_or_refused compiler compiler.components with
      hall | ⟨before, c, after, fault, hsplit, accepted, hfault⟩
    · exact .inl hall.succeeds
    · refine .inr ⟨before, c, after, fault, stage, hsplit, accepted, hfault, rfl, fun text => ?_⟩
      have refused : compiler.runComponents (before ++ c :: after) text.toList =
          .error ⟨fault, stage, c, compiler.tagPrefix⟩ :=
        runComponents_of_nameFault? accepted hfault hstage text.toList
      simp only [compile, run, hsplit, refused, Except.map]

/-- Under a prefix that is accepted, a compilation of components with accepted tags succeeds. -/
theorem accepts_of_hasTag (hstart : compiler.tagPrefix = .text start)
    (accepted : isTagPrefix start.toList = true) (tagged : ∀ c ∈ components, c.HasTag) :
    compiler.Accepts components := by
  intro c hc
  refine (Target.nameFault?_eq_none_iff hstart).2 ?_
  rintro (hnot | hrefused)
  · exact hnot (tagged c hc)
  · rw [accepted] at hrefused
    cases hrefused

/-- A compilation is refused exactly if some stage looks for tags and some component offends. The error is
the same for every text: it names the first component that offends, its view, the prefix and the first stage
that looks for tags, and speaks of the prefix only if that component's tag is accepted. -/
theorem compile_refused (hstart : compiler.tagPrefix = .text start) (text : String) :
    ((∃ e, compiler.compile text = .error e) ↔
      (∃ stage ∈ compiler.stages, stage.seeksTags = true) ∧
        ∃ c ∈ compiler.components, c.Offends start) ∧
    (∀ e, compiler.compile text = .error e →
      (∃ before after, compiler.components = before ++ e.component :: after ∧
        e.component.Offends start ∧ ∀ c ∈ before, ¬ c.Offends start) ∧
      compiler.stages.find? Stage.seeksTags = some e.stage ∧
      (e.fault = .invalidTag ∧ ¬ e.component.HasTag ∨
        e.fault = .invalidPrefix ∧ e.component.HasTag ∧ isTagPrefix start.toList = false) ∧
      e.problem? = some (.ofPatternSite e.message []
        ⟨some e.component.tag, some (.text e.component.view), some (.text start),
          some (.text e.stage.label)⟩)) ∧
    ∀ other e, compiler.compile text = .error e ↔ compiler.compile other = .error e := by
  have offends {c : Component} : c.Offends start ↔ (compiler.target c).nameFault? ≠ none := by
    rw [ne_eq, Target.nameFault?_eq_none_iff hstart, Classical.not_not]
    rfl
  rcases succeeds_or_refused compiler with
    succeeds | ⟨before, c, after, fault, stage, hsplit, accepted, hfault, hstage, refused⟩
  · have succeeded (text : String) {e : PatternError} : compiler.compile text ≠ .error e := by
      rw [compile_of_succeeds succeeds]
      exact fun h => by cases h
    refine ⟨⟨?_, ?_⟩, fun e h => absurd h (succeeded text), fun other e => ?_⟩
    · rintro ⟨e, h⟩
      exact absurd h (succeeded text)
    · rintro ⟨⟨stage, hmem, hseeks⟩, c, hc, hoffends⟩
      exact absurd (Stage.runs_iff.1 (succeeds c hc stage hmem) hseeks) (offends.1 hoffends)
    · exact ⟨fun h => absurd h (succeeded text), fun h => absurd h (succeeded other)⟩
  · have hc : c.Offends start := offends.2 (by simp [hfault])
    refine ⟨⟨fun _ => ⟨⟨stage, List.mem_of_find?_eq_some hstage, List.find?_some hstage⟩, c, ?_, hc⟩,
      fun _ => ⟨_, refused text⟩⟩, ?_, fun other e => by rw [refused text, refused other]⟩
    · simp [hsplit]
    · intro e h
      rw [refused text, Except.error.injEq] at h
      subst h
      have cause := Target.nameFault?_eq_some hstart hfault
      refine ⟨⟨before, after, hsplit, hc, ?_⟩, hstage, cause, ?_⟩
      · intro d hd
        exact (Target.nameFault?_eq_none_iff hstart).1 (accepted d hd)
      · rcases cause with ⟨rfl, -⟩ | ⟨rfl, -⟩ <;> simp [PatternError.problem?, PatternError.site, hstart]

/-- A compiler with a tag and a prefix that are both refused, which looks for slots first. -/
def forBroken : Compiler :=
  ⟨[⟨"components.broken", "bro*ken", none⟩, ⟨"card", "card", none⟩], "x -", {},
    [.slot, .closing, .opening]⟩

/-- What all its compilations end with. -/
def brokenTag : PatternError :=
  ⟨.invalidTag, .closing, ⟨"components.broken", "bro*ken", none⟩, "x -"⟩

theorem compile_refused_of_broken :
    forBroken.tagPrefix = .text "x -" ∧
      forBroken.compile "<slot name='a'>b</slot></card>" = .error brokenTag ∧
      forBroken.compile "" = .error brokenTag ∧
      brokenTag.problem? = some (.ofPatternSite brokenTag.message []
        ⟨some "bro*ken", some "components.broken", some "x -", some "closing"⟩) := by
  have refused : forBroken.compile "<slot name='a'>b</slot></card>" = .error brokenTag := rfl
  obtain ⟨-, carried, same⟩ := @compile_refused forBroken "x -" rfl "<slot name='a'>b</slot></card>"
  exact ⟨rfl, refused, (same "" brokenTag).1 refused, (carried brokenTag refused).2.2.2⟩

end Compiler

end ComponentTags
