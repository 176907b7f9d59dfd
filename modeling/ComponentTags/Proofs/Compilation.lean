import ComponentTags.Compiler
import ComponentTags.Proofs.TagReading

/-!
# Compilations that refuse no name

As long as no stage looks for a name that is refused, a compilation is a fold: each component's stages
rewrite the text that the components before it left, and each reports how much it rewrote. Every other
compilation ends with an error, whatever the text.
-/

namespace ComponentTags

namespace Target

/-- The name of the component's elements. -/
def elementName (t : Target) : List Char :=
  (t.component.element t.tagPrefix).toList

theorem elementName_eq_append {t : Target} {tag start : String} (htag : t.component.tag = .text tag)
    (hstart : t.tagPrefix = .text start) : t.elementName = start.toList ++ tag.toList := by
  simp [elementName, Component.element, htag, hstart, Value.plain]

theorem elementText_eq_append (t : Target) (attributes : List Char) :
    t.elementText attributes = t.startText attributes ++ t.finishText :=
  String.toList_append

theorem nameFault?_eq_none {t : Target} (h : t.nameFault? = none) :
    ∃ tag start, t.component.tag = .text tag ∧ t.tagPrefix = .text start ∧
      isTag tag.toList = true ∧ isTagPrefix start.toList = true := by
  unfold nameFault? at h
  split at h
  · cases h
  · rename_i tag start htag hprefix
    split at h
    · rename_i hstart
      unfold tagText? at htag
      split at htag
      · rename_i tag' heq
        split at htag
        · rename_i hvalid
          exact ⟨tag', start, heq, hprefix, hvalid, hstart⟩
        · cases htag
      · cases htag
    · cases h
  · cases h

theorem name_of_accepted {t : Target} (h : t.nameFault? = none) (stage : Stage) :
    t.name stage = .ok t.elementName := by
  simp [name, h, elementName]

theorem mem_of_withoutFinalNewline {s : List Char} {c : Char} (h : c ∈ s) :
    c ∈ withoutFinalNewline s ∨ c = '\n' := by
  unfold withoutFinalNewline
  split
  · rename_i hlast
    obtain ⟨front, rfl⟩ := List.getLast?_eq_some_iff.1 hlast
    rcases List.mem_append.1 h with h | h
    · exact .inl (by simpa using h)
    · exact .inr (by simpa using h)
  · exact .inl h

theorem isTagChar_of_isTagStart {c : Char} (h : isTagStart c = true) : isTagChar c = true := by
  simp only [isTagStart, Bool.or_eq_true, beq_iff_eq] at h
  rcases h with h | rfl
  · simp [isTagChar, Char.isAlphanum, h]
  · decide

theorem elementName_isElementName {t : Target} (h : t.nameFault? = none) :
    IsElementName t.elementName := by
  obtain ⟨tag, start, htag, hprefix, hvalid, hstart⟩ := nameFault?_eq_none h
  have hname := elementName_eq_append htag hprefix
  unfold isTag at hvalid
  split at hvalid
  · cases hvalid
  · rename_i c rest hcut
    rw [Bool.and_eq_true, List.all_eq_true] at hvalid
    constructor
    · rw [hname]
      intro hnil
      rw [(List.append_eq_nil_iff.1 hnil).2] at hcut
      cases hcut
    · intro d hd
      rw [hname] at hd
      rcases List.mem_append.1 hd with hd | hd
      · rcases mem_of_withoutFinalNewline hd with hd | hd
        · exact .inl (List.all_eq_true.1 hstart d hd)
        · exact .inr hd
      · rcases mem_of_withoutFinalNewline hd with hd | hd
        · rw [hcut] at hd
          rcases List.mem_cons.1 hd with rfl | hd
          · exact .inl (isTagChar_of_isTagStart hvalid.1)
          · exact .inl (hvalid.2 d hd)
        · exact .inr hd

/-- The character that starts the tag is one of tags, whatever line feeds the name holds. -/
theorem elementName_isTagName {t : Target} (h : t.nameFault? = none) : IsTagName t.elementName where
  toIsElementName := elementName_isElementName h
  tagged := by
    obtain ⟨tag, start, htag, hprefix, hvalid, -⟩ := nameFault?_eq_none h
    have hname := elementName_eq_append htag hprefix
    have hkept : withoutFinalNewline tag.toList ⊆ tag.toList := by
      unfold withoutFinalNewline
      split
      · exact List.dropLast_subset _
      · exact List.Subset.refl _
    unfold isTag at hvalid
    split at hvalid
    · cases hvalid
    · rename_i c rest hcut
      rw [Bool.and_eq_true] at hvalid
      have hc : c ∈ tag.toList := hkept (by simp [hcut])
      exact ⟨c, by simp [hname, hc], isTagChar_of_isTagStart hvalid.1⟩

end Target

namespace Stage

/-- The text that a stage leaves. -/
def rewrite (stage : Stage) (t : Target) (s : List Char) : List Char :=
  match stage with
  | slot => Markup.slot.replace (fun found => Directive.slot found.name found.contents) s
  | selfClosing => (Markup.selfClosing t.elementName).replace t.elementText s
  | opening => (Markup.opening t.elementName).replace t.startText s
  | closing => (Markup.closing t.elementName).replace (fun _ => t.finishText) s

/-- How many occurrences a stage finds. -/
def count (stage : Stage) (t : Target) (s : List Char) : Nat :=
  match stage with
  | slot => Markup.slot.count s
  | selfClosing => (Markup.selfClosing t.elementName).count s
  | opening => (Markup.opening t.elementName).count s
  | closing => (Markup.closing t.elementName).count s

/-- A stage runs on a component unless it looks for a name that is refused. -/
def Runs (stage : Stage) (t : Target) : Prop :=
  stage = slot ∨ t.nameFault? = none

theorem run_of_runs {stage : Stage} {t : Target} (h : stage.Runs t) (s : List Char) :
    stage.run t s = .ok (stage.rewrite t s, stage.count t s) := by
  rcases h with rfl | h
  · rfl
  · cases stage <;> simp [run, rewrite, count, Target.name_of_accepted h, Except.map]

theorem runs_of_run_eq_ok {stage : Stage} {t : Target} {s : List Char} {found : List Char × Nat}
    (h : stage.run t s = .ok found) : stage.Runs t := by
  cases hfault : t.nameFault? with
  | none => exact .inr hfault
  | some fault =>
    cases stage with
    | slot => exact .inl rfl
    | selfClosing => simp [run, Target.name, hfault, Except.map] at h
    | opening => simp [run, Target.name, hfault, Except.map] at h
    | closing => simp [run, Target.name, hfault, Except.map] at h

end Stage

namespace Compiler

/-- The target of a component under a compiler. -/
def target (compiler : Compiler) (c : Component) : Target :=
  ⟨c, compiler.tagPrefix, compiler.spelling⟩

/-- Every component has a tag that is accepted, and so is the prefix. -/
def Accepts (compiler : Compiler) (components : List Component) : Prop :=
  ∀ c ∈ components, (compiler.target c).nameFault? = none

/-- Every stage runs on every component. -/
def Succeeds (compiler : Compiler) (components : List Component) : Prop :=
  ∀ c ∈ components, ∀ stage ∈ compiler.stages, stage.Runs (compiler.target c)

/-- The text that stages leave, one after another. -/
def rewriteStages (t : Target) (stages : List Stage) (s : List Char) : List Char :=
  stages.foldl (fun s stage => stage.rewrite t s) s

/-- What stages record, one after another. -/
def tallyStages (t : Target) : List Stage → Tally → List Char → Tally
  | [], tally, _ => tally
  | stage :: rest, tally, s =>
    tallyStages t rest (tally.record stage.label (stage.count t s)) (stage.rewrite t s)

/-- The text that components leave, one after another. -/
def rewriteText (compiler : Compiler) (components : List Component) (s : List Char) : List Char :=
  components.foldl (fun s c => rewriteStages (compiler.target c) compiler.stages s) s

/-- What components report, one after another. -/
def reports (compiler : Compiler) : List Component → List Char → List ComponentReport
  | [], _ => []
  | c :: rest, s =>
    ⟨c.tag, c.view, tallyStages (compiler.target c) compiler.stages [] s⟩ ::
      compiler.reports rest (rewriteStages (compiler.target c) compiler.stages s)

/-- All stages, one after another. -/
theorem rewriteStages_all (t : Target) (s : List Char) :
    rewriteStages t Stage.all s =
      Stage.closing.rewrite t (Stage.opening.rewrite t
        (Stage.selfClosing.rewrite t (Stage.slot.rewrite t s))) := rfl

theorem tallyStages_all (t : Target) (s : List Char) :
    tallyStages t Stage.all [] s =
      [("slot", (Stage.slot.count t s : Int)),
        ("self-closing", (Stage.selfClosing.count t (Stage.slot.rewrite t s) : Int)),
        ("opening", (Stage.opening.count t
          (Stage.selfClosing.rewrite t (Stage.slot.rewrite t s)) : Int)),
        ("closing", (Stage.closing.count t (Stage.opening.rewrite t
          (Stage.selfClosing.rewrite t (Stage.slot.rewrite t s))) : Int))] := by
  simp [tallyStages, Stage.all, Tally.record, Assoc.insert, Assoc.get?, Stage.label]

variable {compiler : Compiler} {components : List Component} {s : List Char}

theorem Accepts.succeeds (h : compiler.Accepts components) : compiler.Succeeds components :=
  fun c hc _ _ => .inr (h c hc)

theorem runStages_of_runs {t : Target} {stages : List Stage} (h : ∀ stage ∈ stages, stage.Runs t)
    (tally : Tally) (s : List Char) :
    runStages t stages tally s = .ok (rewriteStages t stages s, tallyStages t stages tally s) := by
  induction stages generalizing tally s with
  | nil => rfl
  | cons stage rest ih =>
    rw [runStages, Stage.run_of_runs (h stage (by simp))]
    exact ih (fun other hmem => h other (by simp [hmem])) _ _

theorem runs_of_runStages_eq_ok {t : Target} {stages : List Stage} {tally : Tally}
    {found : List Char × Tally} (h : runStages t stages tally s = .ok found) :
    ∀ stage ∈ stages, stage.Runs t := by
  induction stages generalizing tally s with
  | nil => exact fun _ hmem => absurd hmem List.not_mem_nil
  | cons stage rest ih =>
    cases hrun : stage.run t s with
    | error e => simp [runStages, hrun] at h
    | ok first =>
      simp only [runStages, hrun] at h
      intro other hmem
      rcases List.mem_cons.1 hmem with rfl | hmem
      · exact Stage.runs_of_run_eq_ok hrun
      · exact ih h other hmem

theorem runComponents_of_succeeds (h : compiler.Succeeds components) :
    compiler.runComponents components s =
      .ok (compiler.rewriteText components s, compiler.reports components s) := by
  induction components generalizing s with
  | nil => rfl
  | cons c rest ih =>
    have hrest : compiler.Succeeds rest := fun d hd => h d (by simp [hd])
    have hstages := runStages_of_runs (h c (by simp)) [] s
    unfold target at hstages
    simp only [runComponents, hstages, ih hrest, Except.map]
    rfl

theorem succeeds_of_runComponents_eq_ok {found : List Char × List ComponentReport}
    (h : compiler.runComponents components s = .ok found) : compiler.Succeeds components := by
  induction components generalizing s found with
  | nil => exact fun _ hmem => absurd hmem List.not_mem_nil
  | cons c rest ih =>
    unfold runComponents at h
    split at h
    · cases h
    · rename_i s' tally hfirst
      cases hrest : compiler.runComponents rest s' with
      | error e => simp [hrest, Except.map] at h
      | ok later =>
        intro d hd
        rcases List.mem_cons.1 hd with rfl | hd
        · exact runs_of_runStages_eq_ok hfirst
        · exact ih hrest d hd

/-- A compilation on which every stage runs is the fold. -/
theorem compile_of_succeeds (h : compiler.Succeeds compiler.components) (text : String) :
    compiler.compile text =
      .ok (String.ofList (compiler.rewriteText compiler.components text.toList),
        ⟨compiler.tagPrefix, compiler.reports compiler.components text.toList⟩) := by
  simp [compile, run, runComponents_of_succeeds h, Except.map]

/-- Whether a compilation succeeds does not depend on the text. -/
theorem succeeds_of_compile_eq_ok {text : String} {found : String × Report}
    (h : compiler.compile text = .ok found) : compiler.Succeeds compiler.components := by
  cases hrun : compiler.runComponents compiler.components text.toList with
  | error e => simp [compile, run, hrun, Except.map] at h
  | ok later => exact succeeds_of_runComponents_eq_ok hrun

theorem compile_of_accepts (h : compiler.Accepts compiler.components) (text : String) :
    compiler.compile text =
      .ok (String.ofList (compiler.rewriteText compiler.components text.toList),
        ⟨compiler.tagPrefix, compiler.reports compiler.components text.toList⟩) :=
  compile_of_succeeds h.succeeds text

/-- The text that a compilation gives; none if a name is refused. -/
def result? (compiler : Compiler) (text : String) : Option String :=
  (compiler.compile text).toOption.map (·.1)

theorem result?_of_succeeds (h : compiler.Succeeds compiler.components) (text : String) :
    compiler.result? text =
      some (String.ofList (compiler.rewriteText compiler.components text.toList)) := by
  simp [result?, compile_of_succeeds h, Except.toOption]

theorem result?_of_accepts (h : compiler.Accepts compiler.components) (text : String) :
    compiler.result? text =
      some (String.ofList (compiler.rewriteText compiler.components text.toList)) :=
  result?_of_succeeds h.succeeds text

@[simp]
theorem rewriteText_cons {c : Component} :
    compiler.rewriteText (c :: components) s =
      compiler.rewriteText components (rewriteStages (compiler.target c) compiler.stages s) := rfl

theorem rewriteText_append (before after : List Component) :
    compiler.rewriteText (before ++ after) s =
      compiler.rewriteText after (compiler.rewriteText before s) := by
  simp [rewriteText]

theorem reports_append (before after : List Component) :
    compiler.reports (before ++ after) s =
      compiler.reports before s ++ compiler.reports after (compiler.rewriteText before s) := by
  induction before generalizing s with
  | nil => rfl
  | cons c rest ih =>
    rw [List.cons_append, reports, reports, ih, List.cons_append, rewriteText_cons]

end Compiler

end ComponentTags
