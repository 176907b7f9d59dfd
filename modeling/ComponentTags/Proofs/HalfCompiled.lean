import ComponentTags.Proofs.Rewriting
import ComponentTags.Proofs.WrittenTags
import Mathlib.Data.List.Nodup

/-!
# Half-compiled documents

Between two stages of a compilation some tags of a document are directives already and the others are still
tags. Which ones is decided by the stages that have passed. For components whose texts hold no tags, the
directives among the tags hold no `<`, and none of them completes a `/>`.
-/

namespace ComponentTags

/-- What a stage looks for: elements of a name, or slots. -/
def Stage.key : Stage → Target → Stage × List Char
  | .slot, _ => (.slot, "slot".toList)
  | stage, t => (stage, t.elementName)

namespace Compiler

/-- The rendering in which the tags that passed stages looked for are directives. -/
def halfway (compiler : Compiler) (passed : List (Stage × List Char)) : Rendering where
  void c attributes :=
    if Stage.selfClosing.key (compiler.target c) ∈ passed then compiler.directives.void c attributes
    else compiler.source.void c attributes
  start c attributes :=
    if Stage.opening.key (compiler.target c) ∈ passed then compiler.directives.start c attributes
    else compiler.source.start c attributes
  finish c :=
    if Stage.closing.key (compiler.target c) ∈ passed then compiler.directives.finish c
    else compiler.source.finish c
  slotStart name :=
    if (.slot, "slot".toList) ∈ passed then compiler.directives.slotStart name
    else compiler.source.slotStart name
  slotFinish :=
    if (.slot, "slot".toList) ∈ passed then compiler.directives.slotFinish
    else compiler.source.slotFinish

/-- The components can be told apart by their names, which slots do not share, no name ends in a hyphen or
holds a line feed, and no text that directives take over holds the mark of a tag. -/
structure Regular (compiler : Compiler) : Prop where
  accepts : compiler.Accepts compiler.components
  distinct : (compiler.components.map (·.tag)).Nodup
  feedless : ∀ c ∈ compiler.components, '\n' ∉ (compiler.target c).elementName
  endsOpenly : ∀ c ∈ compiler.components, (compiler.target c).elementName.getLast? ≠ some '-'
  slotless : ∀ c ∈ compiler.components, (compiler.target c).elementName ≠ "slot".toList
  views : ∀ c ∈ compiler.components, '<' ∉ c.view.toList ∧ '>' ∉ c.view.toList
  models : ∀ c ∈ compiler.components, ∀ m, c.dataModel = some m →
    '<' ∉ m.plain.toList ∧ '>' ∉ m.plain.toList
  stack : '<' ∉ compiler.spelling.contextStack.plain.toList ∧
    '>' ∉ compiler.spelling.contextStack.plain.toList

variable {compiler : Compiler} {components : List Component} {c d : Component}
  {attributes : List TagAttribute} {passed : List (Stage × List Char)}

namespace Regular

/-! ## Names -/

theorem isPlainName (regular : compiler.Regular) (hc : c ∈ compiler.components) :
    IsPlainName (compiler.target c).elementName :=
  (Target.elementName_isElementName (regular.accepts c hc)).toPlainName (regular.feedless c hc)

/-- Components of one name are one component. -/
theorem eq_of_elementName (regular : compiler.Regular) (hc : c ∈ compiler.components)
    (hd : d ∈ compiler.components)
    (h : (compiler.target c).elementName = (compiler.target d).elementName) : c = d := by
  obtain ⟨tag, start, htag, hstart, -, -⟩ := Target.nameFault?_eq_none (regular.accepts c hc)
  obtain ⟨tag', start', htag', hstart', -, -⟩ := Target.nameFault?_eq_none (regular.accepts d hd)
  have hsame : start = start' := by
    have heq : Value.text start = Value.text start' := hstart.symm.trans hstart'
    cases heq
    rfl
  have hname : start.toList ++ tag.toList = start'.toList ++ tag'.toList := by
    rw [← Target.elementName_eq_append htag hstart, ← Target.elementName_eq_append htag' hstart', h]
  rw [hsame, List.append_cancel_left_eq, String.toList_inj] at hname
  have htags : c.tag = d.tag := by
    have heq : (compiler.target c).component.tag = (compiler.target d).component.tag := by
      rw [htag, htag', hname]
    exact heq
  exact List.inj_on_of_nodup_map regular.distinct hc hd htags

/-! ## Directives -/

/-- No part of the directives for attributes of a tag holds a mark of tags. -/
theorem not_mem_part (regular : compiler.Regular) (hc : c ∈ compiler.components)
    (attributes : List TagAttribute) {part : List Char} (filled : Directive.IsPart compiler.spelling c
      (Attribute.parse (TagAttribute.listText attributes)) part) : '<' ∉ part ∧ '>' ∉ part := by
  exact ⟨filled.not_mem (regular.views c hc).1 (fun m hm => (regular.models c hc m hm).1)
      regular.stack.1 (by decide) fun _ _ given => TagAttribute.not_mem_entry (.inl rfl) given,
    filled.not_mem (regular.views c hc).2 (fun m hm => (regular.models c hc m hm).2)
      regular.stack.2 (by decide) fun _ _ given => TagAttribute.not_mem_entry (.inr rfl) given⟩

theorem tagless_void (regular : compiler.Regular) (hc : c ∈ compiler.components)
    (attributes : List TagAttribute) : '<' ∉ compiler.directives.void c attributes :=
  Directive.framed_element.not_mem (by decide) fun _ filled =>
    (regular.not_mem_part hc attributes filled).1

theorem tagless_start (regular : compiler.Regular) (hc : c ∈ compiler.components)
    (attributes : List TagAttribute) : '<' ∉ compiler.directives.start c attributes :=
  Directive.framed_start.not_mem (by decide) fun _ filled =>
    (regular.not_mem_part hc attributes filled).1

theorem tagless_finish (regular : compiler.Regular) (hc : c ∈ compiler.components) :
    '<' ∉ compiler.directives.finish c :=
  Directive.framed_finish.not_mem (by decide) fun _ filled =>
    (regular.not_mem_part hc [] filled).1

/-! ## Lines -/

/-- Where lines were clear in a document, they are so in the half-compiled one. -/
theorem calmer_halfway (regular : compiler.Regular) (passed : List (Stage × List Char)) :
    Rendering.Calmer compiler.components compiler.source (compiler.halfway passed) where
  void c hc attributes := by
    have hfeed : '\n' ∉ compiler.source.void c attributes := by
      simp [source, regular.feedless c hc, TagAttribute.feedless_listText attributes]
    exact .ite (.of_directive hfeed Directive.sealed_element Directive.framed_element
      fun _ filled => (regular.not_mem_part hc attributes filled).2)
  start c hc attributes := by
    have hfeed : '\n' ∉ compiler.source.start c attributes := by
      simp [source, regular.feedless c hc, TagAttribute.feedless_listText attributes]
    exact .ite (.of_directive hfeed Directive.sealed_start Directive.framed_start
      fun _ filled => (regular.not_mem_part hc attributes filled).2)
  finish c hc := by
    have hfeed : '\n' ∉ compiler.source.finish c := by
      simp [source, regular.feedless c hc]
    exact .ite (.of_directive hfeed Directive.sealed_finish Directive.framed_finish
      fun _ filled => (regular.not_mem_part hc [] filled).2)
  slotStart name := by
    have front : Calmer "<slot name=\"".toList "@slot('".toList :=
      .of_literal (by decide) (by decide) (by decide) (by decide)
    have back : Calmer "\">".toList "')".toList :=
      .of_literal (by decide) (by decide) (by decide) (by decide)
    exact .ite (front.append ((Calmer.refl name).append back))
  slotFinish := by
    have finish : Calmer "</slot>".toList "@endslot".toList :=
      .of_literal (by decide) (by decide) (by decide) (by decide)
    exact .ite finish

end Regular

end Compiler

end ComponentTags
