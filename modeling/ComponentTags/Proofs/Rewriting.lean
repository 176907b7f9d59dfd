import ComponentTags.Proofs.AttributeValue
import ComponentTags.Proofs.Compilation
import ComponentTags.Proofs.DirectiveText

/-!
# What a compilation does to a text

Two facts about one stage carry over to all stages of all components. A stage that finds something
overwrites the `<` of its first occurrence, so a text stays as it is only if no stage finds anything in
it. And a stage puts no tag together: a head in its result stood in the text before or in a part of the
component, unless it holds the marker of bound attributes.
-/

namespace ComponentTags

open Attribute (bindMarker)

namespace Directive

variable {spelling : Spelling} {c : Component} {head part text : List Char}

/-- A head in a part of a directive stands in the attribute text, or the part is one of the component. -/
theorem IsPart.standsIn (hhead : HeadLike head) (hmark : ¬ bindMarker <:+: head)
    (filled : IsPart spelling c (Attribute.parse text) part) (h : StandsIn head part) :
    StandsIn head text ∨ IsPart spelling c [] part := by
  cases filled with
  | view => exact .inr .view
  | stack => exact .inr .stack
  | model given => exact .inr (.model given)
  | key given => exact absurd h (Attribute.not_standsIn_key hhead given)
  | value given => exact .inl (Attribute.standsIn_of_mem_parse hhead hmark given h)

/-- A name that stands neither in the values of attributes nor in a part of the component stands nowhere in
the directives. -/
theorem noHead_of_framed {name s : List Char} (isName : IsElementName name)
    (framed : Framed (IsPart spelling c (Attribute.parse text)) s)
    (values : ∀ key value, (key, value) ∈ Attribute.parse text → NoHead name value.toList)
    (parts : ∀ part, IsPart spelling c [] part → NoHead name part) : NoHead name s := by
  intro head hhead hstands
  have headLike := hhead.headLike isName
  obtain ⟨part, hpart, hin⟩ := framed.exists_standsIn headLike hstands
  cases hpart with
  | view => exact parts _ .view head hhead hin
  | stack => exact parts _ .stack head hhead hin
  | model given => exact parts _ (.model given) head hhead hin
  | key given => exact Attribute.not_standsIn_key headLike given hin
  | value given => exact values _ _ given head hhead hin

end Directive

namespace Stage

variable {stage : Stage} {t : Target} {head s : List Char}

/-- A stage changes nothing, or it overwrites the `<` of the first occurrence. -/
theorem rewrite_eq_or_overwritten (stage : Stage) (t : Target) (s : List Char) :
    (stage.count t s = 0 ∧ stage.rewrite t s = s) ∨
      (stage.count t s ≠ 0 ∧ Overwritten s (stage.rewrite t s)) := by
  cases stage with
  | slot =>
    exact Pattern.replace_eq_or_overwritten Markup.slot_readsTags
      (fun found => (Directive.sealed_slot found.name found.contents).coversTag) s
  | selfClosing =>
    exact Pattern.replace_eq_or_overwritten (Markup.selfClosing_readsTags _)
      (fun _ => Directive.sealed_element.coversTag) s
  | opening =>
    exact Pattern.replace_eq_or_overwritten (Markup.opening_readsTags _)
      (fun _ => Directive.sealed_start.coversTag) s
  | closing =>
    exact Pattern.replace_eq_or_overwritten (Markup.closing_readsTags _)
      (fun _ => Directive.sealed_finish.coversTag) s

theorem rewrite_of_count_eq_zero (h : stage.count t s = 0) : stage.rewrite t s = s := by
  rcases rewrite_eq_or_overwritten stage t s with ⟨-, hsame⟩ | ⟨hsome, -⟩
  · exact hsame
  · exact absurd h hsome

theorem rewrite_eq_self_iff : stage.rewrite t s = s ↔ stage.count t s = 0 := by
  rcases stage.rewrite_eq_or_overwritten t s with ⟨hzero, hsame⟩ | ⟨hsome, hover⟩
  · exact ⟨fun _ => hzero, fun _ => hsame⟩
  · exact ⟨fun hsame => absurd hsame.symm hover.ne, fun hzero => absurd hzero hsome⟩

/-- A text without tags in front of another one is copied. -/
theorem rewrite_append_of_not_mem {u : List Char} (stage : Stage) (h : '<' ∉ u) (s : List Char) :
    stage.rewrite t (u ++ s) = u ++ stage.rewrite t s := by
  cases stage with
  | slot => exact Pattern.replace_append_of_not_mem Markup.slot_readsTags h
  | selfClosing => exact Pattern.replace_append_of_not_mem (Markup.selfClosing_readsTags _) h
  | opening => exact Pattern.replace_append_of_not_mem (Markup.opening_readsTags _) h
  | closing => exact Pattern.replace_append_of_not_mem (Markup.closing_readsTags _) h

/-- Where no tag of a name stands, the stages of a component with that name find nothing. -/
theorem count_eq_zero_of_noHead (other : stage ≠ slot) (h : NoHead t.elementName s) :
    stage.count t s = 0 := by
  cases stage with
  | slot => exact absurd rfl other
  | selfClosing =>
    exact Pattern.count_eq_zero_iff.2
      (Pattern.absent_of_noHead (fun _ _ _ hmatch => Markup.startsHead_of_selfClosing? hmatch) h)
  | opening =>
    exact Pattern.count_eq_zero_iff.2
      (Pattern.absent_of_noHead (fun _ _ _ hmatch => Markup.startsHead_of_opening? hmatch) h)
  | closing =>
    exact Pattern.count_eq_zero_iff.2
      (Pattern.absent_of_noHead (fun _ _ _ hmatch => Markup.startsHead_of_closing? hmatch) h)

theorem slot_count_eq_zero_of_noHead (h : NoHead "slot".toList s) : slot.count t s = 0 :=
  Pattern.count_eq_zero_iff.2
    (Pattern.absent_of_noHead (fun _ _ _ hmatch => Markup.startsHead_of_slot? hmatch) h)

/-- The slot stage takes over names and contents only, so it brings in no head at all. -/
theorem standsIn_rewrite_slot (hhead : HeadLike head) (h : StandsIn head (slot.rewrite t s)) :
    StandsIn head s := by
  rcases Pattern.standsIn_replace Markup.slot_readsTags
      (fun found => Directive.sealed_slot found.name found.contents) hhead h with
    h | ⟨u, found, rest, hu, hmatch, h⟩
  · exact h
  · obtain ⟨hname, hcontents⟩ := Markup.standsIn_of_slot? hmatch
    rcases Directive.standsIn_slot hhead h with h | h
    · exact (h.trans hname).trans (.of_isSuffix hu)
    · exact (h.trans hcontents).trans (.of_isSuffix hu)

/-- A head in the text that a stage leaves stood in the text before or stands in a part of the
component. -/
theorem standsIn_rewrite (hhead : HeadLike head) (hmark : ¬ bindMarker <:+: head)
    (h : StandsIn head (stage.rewrite t s)) :
    StandsIn head s ∨ ∃ part, Directive.IsPart t.spelling t.component [] part ∧
      StandsIn head part := by
  have directive {attributes text : List Char}
      (framed : Framed (Directive.IsPart t.spelling t.component (Attribute.parse attributes)) text)
      (hattributes : StandsIn attributes s) (hstands : StandsIn head text) :
      StandsIn head s ∨ ∃ part, Directive.IsPart t.spelling t.component [] part ∧
        StandsIn head part := by
    obtain ⟨part, hpart, hin⟩ := framed.exists_standsIn hhead hstands
    rcases hpart.standsIn hhead hmark hin with h | h
    · exact .inl (h.trans hattributes)
    · exact .inr ⟨part, h, hin⟩
  cases stage with
  | slot => exact .inl (standsIn_rewrite_slot hhead h)
  | selfClosing =>
    rcases Pattern.standsIn_replace (Markup.selfClosing_readsTags _)
        (fun _ => Directive.sealed_element) hhead h with h | ⟨u, text, rest, hu, hmatch, h⟩
    · exact .inl h
    · exact directive Directive.framed_element
        ((Markup.standsIn_of_selfClosing? hmatch).trans (.of_isSuffix hu)) h
  | opening =>
    rcases Pattern.standsIn_replace (Markup.opening_readsTags _)
        (fun _ => Directive.sealed_start) hhead h with h | ⟨u, text, rest, hu, hmatch, h⟩
    · exact .inl h
    · exact directive Directive.framed_start
        ((Markup.standsIn_of_opening? hmatch).trans (.of_isSuffix hu)) h
  | closing =>
    rcases Pattern.standsIn_replace (Markup.closing_readsTags _)
        (fun _ => Directive.sealed_finish) hhead h with h | ⟨u, found, rest, hu, hmatch, h⟩
    · exact .inl h
    · have framed : Framed (Directive.IsPart t.spelling t.component []) t.finishText :=
        Directive.framed_finish
      exact .inr (framed.exists_standsIn hhead h)

end Stage

namespace Compiler

variable {compiler : Compiler} {components : List Component} {t : Target} {stages : List Stage}
  {head s : List Char}

theorem rewriteStages_append_of_not_mem (stages : List Stage) {u : List Char} (h : '<' ∉ u)
    (s : List Char) :
    rewriteStages t stages (u ++ s) = u ++ rewriteStages t stages s := by
  induction stages generalizing s with
  | nil => rfl
  | cons stage rest ih =>
    have hfirst := stage.rewrite_append_of_not_mem (t := t) h s
    have hrest := ih (stage.rewrite t s)
    rw [← hfirst] at hrest
    exact hrest

/-! ## Overwriting -/

/-- Stages find nothing and leave the text as it is, or one finds something and a `<` is lost. -/
theorem rewriteStages_eq_or_overwritten (t : Target) (stages : List Stage) (s : List Char) :
    ((∀ stage ∈ stages, stage.count t s = 0) ∧ rewriteStages t stages s = s) ∨
      ((∃ stage ∈ stages, stage.count t s ≠ 0) ∧ Overwritten s (rewriteStages t stages s)) := by
  induction stages generalizing s with
  | nil => exact .inl ⟨fun _ h => absurd h List.not_mem_nil, rfl⟩
  | cons stage rest ih =>
    have hfold : rewriteStages t (stage :: rest) s = rewriteStages t rest (stage.rewrite t s) := rfl
    rw [hfold]
    rcases stage.rewrite_eq_or_overwritten t s with ⟨hzero, hsame⟩ | ⟨hsome, hover⟩
    · rw [hsame]
      rcases ih s with ⟨hall, hrest⟩ | ⟨⟨other, hmem, hsome⟩, hover⟩
      · refine .inl ⟨fun other hmem => ?_, hrest⟩
        rcases List.mem_cons.1 hmem with rfl | hmem
        · exact hzero
        · exact hall other hmem
      · exact .inr ⟨⟨other, List.mem_cons_of_mem _ hmem, hsome⟩, hover⟩
    · refine .inr ⟨⟨stage, List.mem_cons_self, hsome⟩, ?_⟩
      rcases ih (stage.rewrite t s) with ⟨-, hrest⟩ | ⟨-, hover'⟩
      · rwa [hrest]
      · exact hover.trans hover'

/-- The same for the stages of all components. -/
theorem rewriteText_eq_or_overwritten (compiler : Compiler) (components : List Component)
    (s : List Char) :
    ((∀ c ∈ components, ∀ stage ∈ compiler.stages, stage.count (compiler.target c) s = 0) ∧
        compiler.rewriteText components s = s) ∨
      ((∃ c ∈ components, ∃ stage ∈ compiler.stages, stage.count (compiler.target c) s ≠ 0) ∧
        Overwritten s (compiler.rewriteText components s)) := by
  induction components generalizing s with
  | nil => exact .inl ⟨fun _ h => absurd h List.not_mem_nil, rfl⟩
  | cons c rest ih =>
    rw [rewriteText_cons]
    rcases rewriteStages_eq_or_overwritten (compiler.target c) compiler.stages s with
      ⟨hzero, hsame⟩ | ⟨⟨stage, hstage, hsome⟩, hover⟩
    · rw [hsame]
      rcases ih s with ⟨hall, hrest⟩ | ⟨⟨other, hmem, hsome⟩, hover⟩
      · refine .inl ⟨fun other hmem => ?_, hrest⟩
        rcases List.mem_cons.1 hmem with rfl | hmem
        · exact hzero
        · exact hall other hmem
      · exact .inr ⟨⟨other, List.mem_cons_of_mem _ hmem, hsome⟩, hover⟩
    · refine .inr ⟨⟨c, List.mem_cons_self, stage, hstage, hsome⟩, ?_⟩
      rcases ih (rewriteStages (compiler.target c) compiler.stages s) with ⟨-, hrest⟩ | ⟨-, hover'⟩
      · rwa [hrest]
      · exact hover.trans hover'

/-- A text is left as it is exactly if no stage of any component finds anything in it. -/
theorem rewriteText_eq_self_iff :
    compiler.rewriteText components s = s ↔
      ∀ c ∈ components, ∀ stage ∈ compiler.stages, stage.count (compiler.target c) s = 0 := by
  rcases rewriteText_eq_or_overwritten compiler components s with
    ⟨hall, hsame⟩ | ⟨⟨c, hc, stage, hstage, hsome⟩, hover⟩
  · exact ⟨fun _ => hall, fun _ => hsame⟩
  · constructor
    · intro hsame
      exact absurd hsame.symm hover.ne
    · intro hall
      exact absurd (hall c hc stage hstage) hsome

/-! ## Heads -/

theorem standsIn_rewriteStages (hhead : HeadLike head) (hmark : ¬ bindMarker <:+: head)
    (h : StandsIn head (rewriteStages t stages s)) :
    StandsIn head s ∨ ∃ part, Directive.IsPart t.spelling t.component [] part ∧
      StandsIn head part := by
  induction stages generalizing s with
  | nil => exact .inl h
  | cons stage rest ih =>
    rcases ih h with h | h
    · exact Stage.standsIn_rewrite hhead hmark h
    · exact .inr h

/-- A head in a compiled text stood in the template or stands in a part of a component. -/
theorem standsIn_rewriteText (hhead : HeadLike head) (hmark : ¬ bindMarker <:+: head)
    (h : StandsIn head (compiler.rewriteText components s)) :
    StandsIn head s ∨ ∃ c ∈ components, ∃ part, Directive.IsPart compiler.spelling c [] part ∧
      StandsIn head part := by
  induction components generalizing s with
  | nil => exact .inl h
  | cons c rest ih =>
    rcases ih h with h | ⟨d, hd, hpart⟩
    · rcases standsIn_rewriteStages hhead hmark h with h | hpart
      · exact .inl h
      · exact .inr ⟨c, List.mem_cons_self, hpart⟩
    · exact .inr ⟨d, List.mem_cons_of_mem _ hd, hpart⟩

end Compiler

end ComponentTags
