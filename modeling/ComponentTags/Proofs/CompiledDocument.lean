import ComponentTags.Proofs.DocumentPass

/-!
# Compiling a document

Every stage of every component moves a document on, so once all of them have passed, in whichever order the
components come, each tag is a directive: a compilation translates the document tag by tag.
-/

namespace ComponentTags.Compiler

variable {compiler : Compiler} {components : List Component} {c : Component} {doc : Document}

theorem halfway_nil (compiler : Compiler) : compiler.halfway [] = compiler.source := by
  simp only [halfway, List.not_mem_nil, if_false]

namespace Regular

/-- After the stages of a component, all its tags are directives. -/
theorem rewriteStages_render (regular : compiler.Regular) (hc : c ∈ compiler.components)
    (formed : doc.WellFormed compiler.components) (clear : doc.StartsClear compiler.source [])
    (passed : List (Stage × List Char)) :
    ∃ passed', passed ⊆ passed' ∧ (∀ stage : Stage, stage.key (compiler.target c) ∈ passed') ∧
      rewriteStages (compiler.target c) Stage.all (doc.render (compiler.halfway passed)) =
        doc.render (compiler.halfway passed') := by
  let key (stage : Stage) := stage.key (compiler.target c)
  have unordered {stage : Stage} (h : stage ≠ .opening) {other : List (Stage × List Char)} :
      stage = .opening → key .selfClosing ∈ other := fun heq => absurd heq h
  have hall (s : List Char) : rewriteStages (compiler.target c) Stage.all s =
      Stage.closing.rewrite (compiler.target c) (Stage.opening.rewrite (compiler.target c)
        (Stage.selfClosing.rewrite (compiler.target c) (Stage.slot.rewrite (compiler.target c) s))) :=
    rfl
  refine ⟨key .closing :: key .opening :: key .selfClosing :: key .slot :: passed, ?_, ?_, ?_⟩
  · intro k hk
    simp [hk]
  · intro stage
    cases stage <;> simp [key]
  · rw [hall, regular.rewrite_render hc (unordered (by decide)) formed clear,
      regular.rewrite_render hc (unordered (by decide)) formed clear,
      regular.rewrite_render hc (fun _ => List.mem_cons_self) formed clear,
      regular.rewrite_render hc (unordered (by decide)) formed clear]

theorem rewriteText_render (regular : compiler.Regular) (hstages : compiler.stages = Stage.all)
    (listed : components ⊆ compiler.components) (formed : doc.WellFormed compiler.components)
    (clear : doc.StartsClear compiler.source []) (passed : List (Stage × List Char)) :
    ∃ passed', passed ⊆ passed' ∧
      (∀ c ∈ components, ∀ stage : Stage, stage.key (compiler.target c) ∈ passed') ∧
      compiler.rewriteText components (doc.render (compiler.halfway passed)) =
        doc.render (compiler.halfway passed') := by
  induction components generalizing passed with
  | nil => exact ⟨passed, List.Subset.refl _, fun _ hc => absurd hc List.not_mem_nil, rfl⟩
  | cons c rest ih =>
    rw [List.cons_subset] at listed
    obtain ⟨between, hbetween, hfirst, hrewrite⟩ :=
      regular.rewriteStages_render listed.1 formed clear passed
    obtain ⟨passed', hpassed, hrest, hrewrites⟩ := ih listed.2 between
    refine ⟨passed', List.Subset.trans hbetween hpassed, ?_, ?_⟩
    · intro d hd stage
      rcases List.mem_cons.1 hd with rfl | hd
      · exact hpassed (hfirst stage)
      · exact hrest d hd stage
    · rw [rewriteText_cons, hstages, hrewrite, hrewrites]

/-- Once the stages of all components have passed, only directives are left. -/
theorem render_halfway_of_passed (hne : compiler.components ≠ [])
    (formed : doc.WellFormed compiler.components) {passed : List (Stage × List Char)}
    (all : ∀ c ∈ compiler.components, ∀ stage : Stage, stage.key (compiler.target c) ∈ passed) :
    doc.render (compiler.halfway passed) = doc.render compiler.directives := by
  obtain ⟨c, rest, hcomponents⟩ := List.exists_cons_of_ne_nil hne
  have hslot : (Stage.slot, "slot".toList) ∈ passed := all c (by simp [hcomponents]) .slot
  refine Document.render_congr formed (fun c hc _ => if_pos (all c hc .selfClosing))
    (fun c hc _ => if_pos (all c hc .opening)) (fun c hc => if_pos (all c hc .closing)) (.inr ⟨?_, ?_⟩)
  · simp only [halfway, if_pos hslot]
  · simp only [halfway, if_pos hslot]

end Regular

/-- A document is compiled to its translation: each of its tags becomes its directive, and the text between
them stays. -/
theorem compile_document (regular : compiler.Regular) (hstages : compiler.stages = Stage.all)
    (hne : compiler.components ≠ []) (formed : doc.WellFormed compiler.components)
    (clear : doc.StartsClear compiler.source []) :
    compiler.result? (String.ofList (doc.render compiler.source)) =
      some (String.ofList (doc.render compiler.directives)) := by
  obtain ⟨passed, -, all, hrewrite⟩ :=
    regular.rewriteText_render hstages (List.Subset.refl _) formed clear []
  rw [halfway_nil, Regular.render_halfway_of_passed hne formed all] at hrewrite
  rw [result?_of_accepts regular.accepts, String.toList_ofList, hrewrite]

/-- A badge and a card. -/
def badge : Component := ⟨"badge", "badge", some "Badge"⟩

def card : Component := ⟨"card", "card", none⟩

/-- A compiler for `<x-badge>` and `<x-card>` with a short expression for the context stack. -/
def library : Compiler :=
  ofList [badge, card] (some "x-") (some { contextStack := "stack()" })

theorem library_regular : library.Regular where
  accepts := by
    intro c hc
    rcases List.mem_pair.1 hc with rfl | rfl <;> decide +kernel
  distinct := by
    simp [library, ofList, badge, card]
  feedless := by
    intro c hc
    rcases List.mem_pair.1 hc with rfl | rfl <;> decide +kernel
  endsOpenly := by
    intro c hc
    rcases List.mem_pair.1 hc with rfl | rfl <;> decide +kernel
  slotless := by
    intro c hc
    rcases List.mem_pair.1 hc with rfl | rfl <;> decide +kernel
  views := by
    intro c hc
    rcases List.mem_pair.1 hc with rfl | rfl <;> decide +kernel
  models := by
    intro c hc m hm
    rcases List.mem_pair.1 hc with rfl | rfl
    · cases hm
      decide +kernel
    · cases hm
  stack := by decide +kernel

/-- A title in double quotes. -/
def title : TagAttribute where
  name := "title".toList
  value := some "Hi".toList
  named := by decide
  nameChars := List.all_eq_true.1 (by decide)
  plain := by
    rintro v ⟨⟩ c hc
    have hchar : c = 'H' ∨ c = 'i' := by simpa using hc
    rcases hchar with rfl | rfl <;> decide

/-- A bare attribute. -/
def isNew : TagAttribute where
  name := ":new".toList
  value := none
  named := by decide
  nameChars := List.all_eq_true.1 (by decide)
  plain := TagAttribute.plain_of_none

/-- A card with a badge in a slot. -/
def page : Document :=
  .text "Dear > reader: ".toList (by decide)
    (.paired card [title] (by rintro a ⟨⟩ ⟨⟩)
      (.text "\n".toList (by decide)
        (.slot "footer".toList (by decide) (.void badge [isNew] .nil) .nil)) .nil)

theorem compile_document_page :
    (library.Regular ∧ library.stages = Stage.all ∧ library.components ≠ [] ∧
      page.WellFormed library.components ∧ page.StartsClear library.source []) ∧
    library.result?
        ("Dear > reader: <x-card title=\"Hi\">\n" ++
          "<slot name=\"footer\"><x-badge :new /></slot></x-card>") =
      some ("Dear > reader: @component('card', array_merge(stack()->read(), ['title' => 'Hi']))\n" ++
        "@slot('footer')@component('badge', array_merge(stack()->read(), ['new' => true], " ++
        "app(Badge::class, array_merge(stack()->read(), ['new' => true]))->toArray()))" ++
        " @endcomponent@endslot @endcomponent") := by
  have formed : page.WellFormed library.components := by
    simp [page, library, ofList, Document.WellFormed, Document.SlotFree]
  have clear : page.StartsClear library.source [] := by
    refine ⟨.inr ?_, ⟨trivial, trivial⟩, trivial⟩
    decide +kernel
  have nonempty : library.components ≠ [] := by simp [library, ofList]
  have compiled := compile_document library_regular rfl nonempty formed clear
  have source : String.ofList (page.render library.source) = "Dear > reader: <x-card title=\"Hi\">\n" ++
      "<slot name=\"footer\"><x-badge :new /></slot></x-card>" := by decide +kernel
  have directives : String.ofList (page.render library.directives) =
      "Dear > reader: @component('card', array_merge(stack()->read(), ['title' => 'Hi']))\n" ++
        "@slot('footer')@component('badge', array_merge(stack()->read(), ['new' => true], " ++
        "app(Badge::class, array_merge(stack()->read(), ['new' => true]))->toArray()))" ++
        " @endcomponent@endslot @endcomponent" := by decide +kernel
  rw [source, directives] at compiled
  exact ⟨⟨library_regular, rfl, nonempty, formed, clear⟩, compiled⟩

end ComponentTags.Compiler
