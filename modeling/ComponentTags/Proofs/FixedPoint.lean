import ComponentTags.Proofs.Rewriting

/-!
# Compiling a compiled text again

A compiled text may hold tags: the contents of a slot and the values of attributes are taken over as they
are. Compiling puts no new ones together, though, so what a second compilation could find stood in the
template. It leaves the text as it is exactly if no stage of any component finds anything in it.
-/

namespace ComponentTags

open Attribute (bindMarker)

/-- The marker of bound attributes reaches into a head only within the name. -/
theorem IsTagHead.not_marked {name head : List Char} (hname : ¬ bindMarker <:+: name)
    (h : IsTagHead name head) : ¬ bindMarker <:+: head := by
  obtain ⟨gap, ⟨hgap, -⟩, rfl⟩ := h
  have skip {c : Char} (hc : c ∉ bindMarker) {s : List Char} (hs : ¬ bindMarker <:+: s) :
      ¬ bindMarker <:+: c :: s := by
    intro hwithin
    rcases List.infix_cons_iff.1 hwithin with hprefix | hwithin
    · obtain ⟨rest, hrest⟩ := hprefix
      have hhead : 'b' = c := (List.cons.inj hrest).1
      exact hc (hhead ▸ by decide)
    · exact hs hwithin
  have gapChar : ∀ c ∈ gap, c ∉ bindMarker := by
    intro c hc
    have all : ∀ d ∈ bindMarker, (!Text.isBlank d && d != '/') = true :=
      List.all_eq_true.1 (by decide)
    intro hmem
    have hnone := all c hmem
    rw [Bool.and_eq_true, Bool.not_eq_true', bne_iff_ne] at hnone
    rcases hgap c hc with hblank | hslash
    · rw [hnone.1] at hblank
      cases hblank
    · exact hnone.2 hslash
  refine skip (by decide) ?_
  clear hgap
  induction gap with
  | nil => exact hname
  | cons c gap ih =>
    exact skip (gapChar c (by simp)) (ih fun d hd => gapChar d (by simp [hd]))

namespace Compiler

/-- Neither the views and the data models of the components nor the expression of the context stack hold
a `<`. -/
structure WithoutTags (compiler : Compiler) : Prop where
  views : ∀ c ∈ compiler.components, '<' ∉ c.view.toList
  models : ∀ c ∈ compiler.components, ∀ m, c.dataModel = some m → '<' ∉ m.plain.toList
  stack : '<' ∉ compiler.spelling.contextStack.plain.toList

variable {compiler : Compiler} {c : Component} {part head s : List Char}

theorem WithoutTags.not_mem_part (plain : compiler.WithoutTags) (hc : c ∈ compiler.components)
    (filled : Directive.IsPart compiler.spelling c [] part) : '<' ∉ part :=
  filled.not_mem (plain.views c hc) (plain.models c hc) plain.stack (by decide)
    fun _ _ given => absurd given List.not_mem_nil

/-- Every head in the compiled text stood in the template. -/
theorem standsIn_of_rewriteText (plain : compiler.WithoutTags) (hhead : HeadLike head)
    (hmark : ¬ bindMarker <:+: head)
    (h : StandsIn head (compiler.rewriteText compiler.components s)) : StandsIn head s := by
  rcases standsIn_rewriteText hhead hmark h with h | ⟨c, hc, part, hpart, hin⟩
  · exact h
  · exact absurd hin (hhead.not_of_not_mem (plain.not_mem_part hc hpart))

/-- The name is one that the stages of a compilation look for. -/
def Seeks (compiler : Compiler) (name : List Char) : Prop :=
  name = "slot".toList ∨ ∃ c ∈ compiler.components, name = (compiler.target c).elementName

theorem Seeks.isElementName (accepted : compiler.Accepts compiler.components) {name : List Char}
    (h : compiler.Seeks name) : IsElementName name := by
  rcases h with rfl | ⟨c, hc, rfl⟩
  · exact slot_isPlainName.toElementName
  · exact Target.elementName_isElementName (accepted c hc)

theorem count_eq_zero_of_noHead (h : ∀ name, compiler.Seeks name → NoHead name s)
    (hc : c ∈ compiler.components) (stage : Stage) : stage.count (compiler.target c) s = 0 := by
  by_cases hstage : stage = .slot
  · rw [hstage]
    exact Stage.slot_count_eq_zero_of_noHead (h _ (.inl rfl))
  · exact Stage.count_eq_zero_of_noHead hstage (h _ (.inr ⟨c, hc, rfl⟩))

/-- A compilation brings no tag head into the text that was not there, as long as the name does not hold
the marker of bound attributes. Compiling the result again leaves it as it is exactly if no stage of any
component finds anything in it, which is so when no head of any sought name is left. -/
theorem compile_twice (accepted : compiler.Accepts compiler.components) (plain : compiler.WithoutTags)
    (text : String) :
    ∃ compiled again, compiler.result? text = some compiled ∧ compiler.result? compiled = some again ∧
      (∀ name head, compiler.Seeks name → ¬ bindMarker <:+: name → IsTagHead name head →
        StandsIn head compiled.toList → StandsIn head text.toList) ∧
      (again = compiled ↔ ∀ c ∈ compiler.components, ∀ stage ∈ compiler.stages,
        stage.count (compiler.target c) compiled.toList = 0) ∧
      ((∀ name, compiler.Seeks name → NoHead name compiled.toList) → again = compiled) := by
  have same {s : List Char} : String.ofList (compiler.rewriteText compiler.components s) =
      String.ofList s ↔
      ∀ c ∈ compiler.components, ∀ stage ∈ compiler.stages, stage.count (compiler.target c) s = 0 := by
    rw [← rewriteText_eq_self_iff]
    exact String.ofList_inj
  refine ⟨_, _, result?_of_accepts accepted text, result?_of_accepts accepted _, ?_, ?_, ?_⟩
  · intro name head hname hmark hhead hstands
    rw [String.toList_ofList] at hstands
    exact standsIn_of_rewriteText plain (hhead.headLike (hname.isElementName accepted))
      (hhead.not_marked hmark) hstands
  · rw [String.toList_ofList]
    exact same
  · rw [String.toList_ofList]
    intro hheads
    rw [same]
    intro c hc stage _
    exact count_eq_zero_of_noHead hheads hc stage

/-- A compiler for the one component `<x-card>`. -/
def forCard : Compiler :=
  ofList [⟨"card", "card", none⟩] (some "x-") none

theorem forCard_accepts : forCard.Accepts forCard.components := by
  intro c hc
  rw [List.mem_singleton.1 hc]
  decide +kernel

theorem forCard_withoutTags : forCard.WithoutTags where
  views := by
    intro c hc
    rw [List.mem_singleton.1 hc]
    decide
  models := by
    intro c hc m hm
    rw [List.mem_singleton.1 hc] at hm
    cases hm
  stack := by decide

/-- The value of an attribute of a card may hold another tag. -/
theorem compile_twice_of_card :
    (forCard.Accepts forCard.components ∧ forCard.WithoutTags) ∧
    ∃ compiled again, forCard.result? "<x-card title=\"<x-card/>\" />" = some compiled ∧
      forCard.result? compiled = some again ∧
      (∀ name head, forCard.Seeks name → ¬ bindMarker <:+: name → IsTagHead name head →
        StandsIn head compiled.toList →
        StandsIn head "<x-card title=\"<x-card/>\" />".toList) ∧
      (again = compiled ↔ ∀ c ∈ forCard.components, ∀ stage ∈ forCard.stages,
        stage.count (forCard.target c) compiled.toList = 0) ∧
      ((∀ name, forCard.Seeks name → NoHead name compiled.toList) → again = compiled) :=
  ⟨⟨forCard_accepts, forCard_withoutTags⟩, compile_twice forCard_accepts forCard_withoutTags _⟩

/-- A slot in another one is kept by the first compilation and replaced by the second one. -/
theorem compile_twice_of_nested_slots :
    (forCard.Accepts forCard.components ∧ forCard.WithoutTags) ∧
    forCard.result? "<slot name=\"a\"><slot name=\"b\">x</slot></slot>" =
        some "@slot('a')<slot name=\"b\">x@endslot</slot>" ∧
      forCard.result? "@slot('a')<slot name=\"b\">x@endslot</slot>" =
        some "@slot('a')@slot('b')x@endslot@endslot" := by
  refine ⟨⟨forCard_accepts, forCard_withoutTags⟩, ?_, ?_⟩
  · decide +kernel
  · decide +kernel

end Compiler

end ComponentTags
