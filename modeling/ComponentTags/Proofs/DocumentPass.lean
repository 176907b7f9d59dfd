import ComponentTags.Proofs.HalfCompiled
import ComponentTags.Proofs.WrittenTags

/-!
# Stages over half-compiled documents

A stage reads a half-compiled document tag by tag. Directives hold no `<`, so it passes over them; tags of
other kinds and other names it refuses, whatever follows; and it takes its own tags as a whole. So the
stage moves the document from one half-compiled form to the next.
-/

namespace ComponentTags

open Markup (slotEnd?)

/-- A text with one `<`, at its head. -/
def OpensOnce (u : List Char) : Prop := ∃ tail, u = '<' :: tail ∧ '<' ∉ tail

/-- A reader skips a tag that it refuses, and a directive in the tag's place. -/
theorem Skips.of_ite {β : Type} {m? : List Char → Option β} {passed : Prop} [Decidable passed]
    {u v w : List Char} (opens : ∀ c s, c ≠ '<' → m? (c :: s) = none) (tagless : '<' ∉ v)
    (opening : OpensOnce u) (refused : ¬ passed → m? (u ++ w) = none) :
    Skips m? (if passed then v else u) w := by
  split
  · exact .of_not_mem opens tagless
  · rename_i hpassed
    obtain ⟨tail, rfl, htail⟩ := opening
    exact cons_iff.2 ⟨refused hpassed, .of_not_mem opens htail⟩

theorem Stage.key_of_ne {stage : Stage} (h : stage ≠ .slot) (t : Target) :
    stage.key t = (stage, t.elementName) := by
  cases stage with
  | slot => exact absurd rfl h
  | selfClosing => rfl
  | opening => rfl
  | closing => rfl

theorem Stage.key_fst (stage : Stage) (t : Target) : (stage.key t).1 = stage := by
  cases stage <;> rfl

theorem Stage.key_ne {stage other : Stage} (h : stage ≠ other) (t u : Target) :
    stage.key t ≠ other.key u := by
  intro heq
  have hfst := congrArg Prod.fst heq
  rw [key_fst, key_fst] at hfst
  exact h hfst

/-- What a replacement makes of the tags of a document, whatever follows them. -/
structure Pattern.Rewrites {α : Type} (p : Pattern α) (f : α → List Char) (components : List Component)
    (r r' : Rendering) : Prop where
  tags : p.ReadsTags
  void : ∀ c ∈ components, ∀ attributes w,
    p.replace f (r.void c attributes ++ w) = r'.void c attributes ++ p.replace f w
  start : ∀ c ∈ components, ∀ attributes, TagAttribute.EndsOpenly attributes → ∀ w,
    TagAttribute.Bare attributes ∨ clearLine false (r.start c attributes ++ w) = true →
      p.replace f (r.start c attributes ++ w) = r'.start c attributes ++ p.replace f w
  finish : ∀ c ∈ components, ∀ w, p.replace f (r.finish c ++ w) = r'.finish c ++ p.replace f w
  slot : ∀ name, IsSlotName name → ∀ inner : Document, inner.SlotFree → inner.WellFormed components →
    ∀ w, p.replace f (inner.render r ++ (r.slotFinish ++ w)) =
        inner.render r' ++ p.replace f (r.slotFinish ++ w) →
      p.replace f (r.slotStart name ++ (inner.render r ++ (r.slotFinish ++ w))) =
        r'.slotStart name ++ (inner.render r' ++ (r'.slotFinish ++ p.replace f w))

/-- A replacement that rewrites every tag rewrites the document. -/
theorem Document.replace_render {α : Type} {p : Pattern α} {f : α → List Char}
    {components : List Component} {r r' : Rendering} (rewrites : p.Rewrites f components r r')
    {doc : Document} {w : List Char} (formed : doc.WellFormed components)
    (clear : doc.StartsClear r w) :
    p.replace f (doc.render r ++ w) = doc.render r' ++ p.replace f w := by
  induction doc generalizing w with
  | nil => rfl
  | text s tagless rest ih =>
    rw [render, render, List.append_assoc, List.append_assoc,
      Pattern.replace_append_of_not_mem rewrites.tags tagless, ih formed clear]
  | void c attributes rest ih =>
    rw [render, render, List.append_assoc, List.append_assoc, rewrites.void c formed.1,
      ih formed.2 clear]
  | paired c attributes ending inner rest ihInner ihRest =>
    obtain ⟨hstart, hinner, hrest⟩ := clear
    rw [render, render]
    simp only [List.append_assoc]
    rw [rewrites.start c formed.1 attributes ending _ hstart, ihInner formed.2.1 hinner,
      rewrites.finish c formed.1, ihRest formed.2.2 hrest]
  | slot name plain inner rest ihInner ihRest =>
    obtain ⟨hinner, hrest⟩ := clear
    rw [render, render]
    simp only [List.append_assoc]
    rw [rewrites.slot name plain inner formed.1 formed.2.1 _ (ihInner formed.2.1 hinner),
      ihRest formed.2.2 hrest]

namespace Compiler.Regular

variable {compiler : Compiler} {c d : Component} {attributes : List TagAttribute}
  {passed : List (Stage × List Char)} {α β : Type} {p : Pattern α} {f : α → List Char}
  {name w : List Char}

/-! ## Tags -/

theorem opensOnce_void (regular : compiler.Regular) (hc : c ∈ compiler.components)
    (attributes : List TagAttribute) : OpensOnce (compiler.source.void c attributes) := by
  refine ⟨_, rfl, ?_⟩
  have hname := (regular.isPlainName hc).toElementName.not_mem (c := '<') (by decide) (by decide)
  simp [hname, TagAttribute.tagless_listText attributes]

theorem opensOnce_start (regular : compiler.Regular) (hc : c ∈ compiler.components)
    (attributes : List TagAttribute) : OpensOnce (compiler.source.start c attributes) := by
  refine ⟨_, rfl, ?_⟩
  have hname := (regular.isPlainName hc).toElementName.not_mem (c := '<') (by decide) (by decide)
  simp [hname, TagAttribute.tagless_listText attributes]

theorem opensOnce_finish (regular : compiler.Regular) (hc : c ∈ compiler.components) :
    OpensOnce (compiler.source.finish c) := by
  refine ⟨_, rfl, ?_⟩
  have hname := (regular.isPlainName hc).toElementName.not_mem (c := '<') (by decide) (by decide)
  simp [hname]

theorem tagless_slotName (hname : IsSlotName name) : '<' ∉ name :=
  fun hmem => (hname _ hmem).2.2.1 rfl

theorem opensOnce_slotStart (hname : IsSlotName name) : OpensOnce (compiler.source.slotStart name) := by
  refine ⟨"slot name=\"".toList ++ (name ++ "\">".toList), rfl, ?_⟩
  have hquote : '<' ∉ "slot name=\"".toList ∧ '<' ∉ "\">".toList := by decide
  simp only [List.mem_append, not_or]
  exact ⟨hquote.1, tagless_slotName hname, hquote.2⟩

theorem opensOnce_slotFinish : OpensOnce compiler.source.slotFinish :=
  ⟨"/slot>".toList, rfl, by decide⟩

theorem tagless_slotStart (hname : IsSlotName name) : '<' ∉ compiler.directives.slotStart name := by
  have hquote : '<' ∉ "@slot('".toList ∧ '<' ∉ "')".toList := by decide
  show '<' ∉ "@slot('".toList ++ (name ++ "')".toList)
  simp only [List.mem_append, not_or]
  exact ⟨hquote.1, tagless_slotName hname, hquote.2⟩

theorem tagless_slotFinish : '<' ∉ compiler.directives.slotFinish := by
  show '<' ∉ "@endslot".toList
  decide

/-! ## Tags of other names -/

theorem void_append (d : Component) (attributes : List TagAttribute) (w : List Char) :
    compiler.source.void d attributes ++ w = '<' :: ((compiler.target d).elementName ++
      (TagAttribute.listText attributes ++ (" />".toList ++ w))) := by
  simp [source]

theorem start_append (d : Component) (attributes : List TagAttribute) (w : List Char) :
    compiler.source.start d attributes ++ w = '<' :: ((compiler.target d).elementName ++
      (TagAttribute.listText attributes ++ '>' :: w)) := by
  simp [source]

theorem finish_append (d : Component) (w : List Char) :
    compiler.source.finish d ++ w = '<' :: '/' :: ((compiler.target d).elementName ++ '>' :: w) := by
  simp [source]

section RefusesOthers

variable {m? : List Char → Option β} {own : List Char}

theorem refused_void (regular : compiler.Regular) (refuses : Markup.RefusesOthers m? own)
    (hd : d ∈ compiler.components) (hne : own ≠ (compiler.target d).elementName)
    (attributes : List TagAttribute) (w : List Char) :
    m? (compiler.source.void d attributes ++ w) = none := by
  rw [void_append]
  exact refuses.opening (regular.isPlainName hd) hne
    (TagAttribute.endsName_listText_append attributes rfl)

theorem refused_start (regular : compiler.Regular) (refuses : Markup.RefusesOthers m? own)
    (hd : d ∈ compiler.components) (hne : own ≠ (compiler.target d).elementName)
    (attributes : List TagAttribute) (w : List Char) :
    m? (compiler.source.start d attributes ++ w) = none := by
  rw [start_append]
  exact refuses.opening (regular.isPlainName hd) hne
    (TagAttribute.endsName_listText_append attributes rfl)

theorem refused_finish (regular : compiler.Regular) (refuses : Markup.RefusesOthers m? own)
    (hd : d ∈ compiler.components) (hne : own ≠ (compiler.target d).elementName) (w : List Char) :
    m? (compiler.source.finish d ++ w) = none := by
  rw [finish_append]
  exact refuses.closing (regular.isPlainName hd) hne rfl

theorem refused_slotStart (compiler : Compiler) (refuses : Markup.RefusesOthers m? own)
    (hne : own ≠ "slot".toList) (name w : List Char) : m? (compiler.source.slotStart name ++ w) = none := by
  have hshape : compiler.source.slotStart name ++ w =
      '<' :: ("slot".toList ++ (" name=\"".toList ++ (name ++ "\">".toList) ++ w)) := rfl
  rw [hshape]
  exact refuses.opening slot_isPlainName hne rfl

theorem refused_slotFinish (compiler : Compiler) (refuses : Markup.RefusesOthers m? own)
    (hne : own ≠ "slot".toList) (w : List Char) : m? (compiler.source.slotFinish ++ w) = none := by
  have hshape : compiler.source.slotFinish ++ w = '<' :: '/' :: ("slot".toList ++ '>' :: w) := rfl
  rw [hshape]
  exact refuses.closing slot_isPlainName hne rfl

end RefusesOthers

/-! ## Elements -/

/-- A tag of another kind is copied, and the stage makes no difference to how it is written. -/
theorem replace_other {key own : Stage × List Char} {u v : List Char} (tags : p.ReadsTags)
    (hkey : key ≠ own) (tagless : '<' ∉ v) (opening : OpensOnce u)
    (refused : key ∉ passed → p.match? (u ++ w) = none) :
    p.replace f ((if key ∈ passed then v else u) ++ w) =
      (if key ∈ own :: passed then v else u) ++ p.replace f w := by
  have hsame : (key ∈ own :: passed) = (key ∈ passed) := by simp [hkey]
  rw [Pattern.replace_append (.of_ite tags.opens tagless opening refused)]
  simp only [hsame]

/-- A tag of the stage's own kind becomes a directive where it has the stage's name. -/
theorem replace_own (regular : compiler.Regular) {stage : Stage} (tags : p.ReadsTags)
    (element : stage ≠ .slot) (hc : c ∈ compiler.components) (hd : d ∈ compiler.components)
    {u v : List Char} (tagless : '<' ∉ v) (opening : OpensOnce u)
    (found : c = d → p.replace f (u ++ w) = v ++ p.replace f w)
    (refused : (compiler.target c).elementName ≠ (compiler.target d).elementName →
      p.match? (u ++ w) = none) :
    p.replace f ((if stage.key (compiler.target d) ∈ passed then v else u) ++ w) =
      (if stage.key (compiler.target d) ∈ stage.key (compiler.target c) :: passed then v else u) ++
        p.replace f w := by
  by_cases hname : (compiler.target c).elementName = (compiler.target d).elementName
  · have hcd : c = d := regular.eq_of_elementName hc hd hname
    have hnow : stage.key (compiler.target d) ∈ stage.key (compiler.target c) :: passed := by
      rw [hcd]
      exact List.mem_cons_self
    rw [if_pos hnow]
    split
    · exact Pattern.replace_append_of_not_mem tags tagless
    · exact found hcd
  · apply replace_other tags _ tagless opening fun _ => refused hname
    rw [Stage.key_of_ne element, Stage.key_of_ne element]
    intro heq
    exact hname (congrArg Prod.snd heq).symm

/-- A stage that refuses the tags of slots copies a slot around its contents. -/
theorem replace_slot {stage : Stage} (tags : p.ReadsTags) (element : stage ≠ .slot)
    (plain : IsSlotName name) (start : ∀ w, p.match? (compiler.source.slotStart name ++ w) = none)
    (finish : ∀ w, p.match? (compiler.source.slotFinish ++ w) = none) {inner inner' : List Char}
    (ih : p.replace f (inner ++ ((compiler.halfway passed).slotFinish ++ w)) =
      inner' ++ p.replace f ((compiler.halfway passed).slotFinish ++ w)) :
    p.replace f ((compiler.halfway passed).slotStart name ++
        (inner ++ ((compiler.halfway passed).slotFinish ++ w))) =
      (compiler.halfway (stage.key (compiler.target c) :: passed)).slotStart name ++
        (inner' ++ ((compiler.halfway (stage.key (compiler.target c) :: passed)).slotFinish ++
          p.replace f w)) := by
  have hkey : (Stage.slot, "slot".toList) ≠ stage.key (compiler.target c) :=
    Stage.key_ne (Ne.symm element) (compiler.target c) _
  have hstart (u : List Char) : p.replace f ((compiler.halfway passed).slotStart name ++ u) =
      (compiler.halfway (stage.key (compiler.target c) :: passed)).slotStart name ++ p.replace f u :=
    replace_other tags hkey (tagless_slotStart plain) (opensOnce_slotStart plain) fun _ => start u
  have hfinish : p.replace f ((compiler.halfway passed).slotFinish ++ w) =
      (compiler.halfway (stage.key (compiler.target c) :: passed)).slotFinish ++ p.replace f w :=
    replace_other tags hkey tagless_slotFinish opensOnce_slotFinish fun _ => finish w
  rw [hstart, ih, hfinish]

theorem selfClosing_rewrites (regular : compiler.Regular) (hc : c ∈ compiler.components)
    (passed : List (Stage × List Char)) :
    (Markup.selfClosing (compiler.target c).elementName).Rewrites (compiler.target c).elementText
      compiler.components (compiler.halfway passed)
      (compiler.halfway (Stage.selfClosing.key (compiler.target c) :: passed)) where
  tags := Markup.selfClosing_readsTags _
  void d hd attributes w := by
    refine regular.replace_own (Markup.selfClosing_readsTags _) (by decide) hc hd
      (regular.tagless_void hd attributes) (regular.opensOnce_void hd attributes) ?_ fun hne => ?_
    · rintro rfl
      have hmatch := Markup.selfClosing?_source (regular.isPlainName hc).toTagName attributes w
      rw [Pattern.replace_of_match hmatch, Target.elementText, Attribute.parse_tail_listText]
      rfl
    · exact regular.refused_void (Markup.selfClosing_refusesOthers (regular.isPlainName hc)) hd hne
        attributes w
  start d hd attributes ending w clear := by
    refine replace_other (Markup.selfClosing_readsTags _) (Stage.key_ne (by decide) _ _)
      (regular.tagless_start hd attributes) (regular.opensOnce_start hd attributes) fun hpassed => ?_
    by_cases hname : (compiler.target c).elementName = (compiler.target d).elementName
    · rw [regular.eq_of_elementName hc hd hname]
      have hsource : (compiler.halfway passed).start d attributes = compiler.source.start d attributes :=
        if_neg hpassed
      rw [hsource] at clear
      rcases clear with bare | clear
      · exact Markup.selfClosing?_of_bare (regular.isPlainName hd) bare w
      · exact Markup.selfClosing?_of_clearLine (regular.isPlainName hd) clear
    · exact regular.refused_start (Markup.selfClosing_refusesOthers (regular.isPlainName hc)) hd hname
        attributes w
  finish d hd w := by
    refine replace_other (Markup.selfClosing_readsTags _) (Stage.key_ne (by decide) _ _)
      (regular.tagless_finish hd) (regular.opensOnce_finish hd) fun _ => ?_
    exact Markup.selfClosing?_of_slash (regular.isPlainName hc).toElementName _
  slot name plain inner _ _ w ih := by
    have refuses := Markup.selfClosing_refusesOthers (regular.isPlainName hc)
    exact replace_slot (Markup.selfClosing_readsTags _) (by decide) plain
      (refused_slotStart compiler refuses (regular.slotless c hc) name)
      (refused_slotFinish compiler refuses (regular.slotless c hc)) ih

/-- When its stage runs, the self-closing elements of the component are directives. -/
theorem opening_rewrites (regular : compiler.Regular) (hc : c ∈ compiler.components)
    (hpassed : Stage.selfClosing.key (compiler.target c) ∈ passed) :
    (Markup.opening (compiler.target c).elementName).Rewrites (compiler.target c).startText
      compiler.components (compiler.halfway passed)
      (compiler.halfway (Stage.opening.key (compiler.target c) :: passed)) where
  tags := Markup.opening_readsTags _
  void d hd attributes w := by
    refine replace_other (Markup.opening_readsTags _) (Stage.key_ne (by decide) _ _)
      (regular.tagless_void hd attributes) (regular.opensOnce_void hd attributes) fun hnot => ?_
    have hname : (compiler.target c).elementName ≠ (compiler.target d).elementName := by
      intro heq
      rw [regular.eq_of_elementName hc hd heq] at hpassed
      exact hnot hpassed
    exact regular.refused_void (Markup.opening_refusesOthers (regular.isPlainName hc)) hd hname
      attributes w
  start d hd attributes ending w _ := by
    refine regular.replace_own (Markup.opening_readsTags _) (by decide) hc hd
      (regular.tagless_start hd attributes) (regular.opensOnce_start hd attributes) ?_ fun hne => ?_
    · rintro rfl
      have hmatch := Markup.opening?_source (regular.isPlainName hc).toTagName
        (fun _ => regular.endsOpenly c hc) ending w
      rw [Pattern.replace_of_match hmatch]
      rfl
    · exact regular.refused_start (Markup.opening_refusesOthers (regular.isPlainName hc)) hd hne
        attributes w
  finish d hd w := by
    refine replace_other (Markup.opening_readsTags _) (Stage.key_ne (by decide) _ _)
      (regular.tagless_finish hd) (regular.opensOnce_finish hd) fun _ => ?_
    exact Markup.opening?_of_slash (regular.isPlainName hc).toElementName _
  slot name plain inner _ _ w ih := by
    have refuses := Markup.opening_refusesOthers (regular.isPlainName hc)
    exact replace_slot (Markup.opening_readsTags _) (by decide) plain
      (refused_slotStart compiler refuses (regular.slotless c hc) name)
      (refused_slotFinish compiler refuses (regular.slotless c hc)) ih

theorem closing_rewrites (regular : compiler.Regular) (hc : c ∈ compiler.components)
    (passed : List (Stage × List Char)) :
    (Markup.closing (compiler.target c).elementName).Rewrites
      (fun _ => (compiler.target c).finishText) compiler.components (compiler.halfway passed)
      (compiler.halfway (Stage.closing.key (compiler.target c) :: passed)) where
  tags := Markup.closing_readsTags _
  void d hd attributes w := by
    refine replace_other (Markup.closing_readsTags _) (Stage.key_ne (by decide) _ _)
      (regular.tagless_void hd attributes) (regular.opensOnce_void hd attributes) fun _ => ?_
    rw [void_append]
    exact Markup.closing?_of_name (regular.isPlainName hd).toElementName _
  start d hd attributes ending w _ := by
    refine replace_other (Markup.closing_readsTags _) (Stage.key_ne (by decide) _ _)
      (regular.tagless_start hd attributes) (regular.opensOnce_start hd attributes) fun _ => ?_
    rw [start_append]
    exact Markup.closing?_of_name (regular.isPlainName hd).toElementName _
  finish d hd w := by
    refine regular.replace_own (Markup.closing_readsTags _) (by decide) hc hd
      (regular.tagless_finish hd) (regular.opensOnce_finish hd) ?_ fun hne => ?_
    · rintro rfl
      rw [Pattern.replace_of_match (Markup.closing?_source (regular.isPlainName hc).toTagName w)]
      rfl
    · exact regular.refused_finish (Markup.closing_refusesOthers (regular.isPlainName hc)) hd hne w
  slot name plain inner _ _ w ih := by
    have refuses := Markup.closing_refusesOthers (regular.isPlainName hc)
    exact replace_slot (Markup.closing_readsTags _) (by decide) plain
      (refused_slotStart compiler refuses (regular.slotless c hc) name)
      (refused_slotFinish compiler refuses (regular.slotless c hc)) ih

/-! ## Slots -/

theorem directive_slot_append (name contents w : List Char) :
    Directive.slot name contents ++ w = compiler.directives.slotStart name ++
      (contents ++ (compiler.directives.slotFinish ++ w)) := by
  have hstart : compiler.directives.slotStart name = "@slot('".toList ++ (name ++ "')".toList) := rfl
  have hfinish : compiler.directives.slotFinish = "@endslot".toList := rfl
  rw [hstart, hfinish]
  unfold Directive.slot
  simp

/-- No slot is closed inside a document without slots. -/
theorem skips_slotEnd? (regular : compiler.Regular) {doc : Document}
    (formed : doc.WellFormed compiler.components) (free : doc.SlotFree) (w : List Char) :
    Skips slotEnd? (doc.render (compiler.halfway passed)) w := by
  have opens : ∀ c s, c ≠ '<' → slotEnd? (c :: s) = none := fun _ s hc =>
    Markup.slotEnd?_cons_of_ne hc s
  induction doc generalizing w with
  | nil => exact .nil
  | text s tagless rest ih =>
    exact Skips.append_iff.2 ⟨.of_not_mem opens tagless, ih formed free w⟩
  | void c attributes rest ih =>
    have refused := regular.refused_void Markup.slotEnd_refusesOthers formed.1
      (Ne.symm (regular.slotless c formed.1)) attributes
    exact Skips.append_iff.2 ⟨.of_ite opens (regular.tagless_void formed.1 attributes)
      (regular.opensOnce_void formed.1 attributes) fun _ => refused _, ih formed.2 free w⟩
  | paired c attributes ending inner rest ihInner ihRest =>
    obtain ⟨hc, hinner, hrest⟩ := formed
    have hslot := Ne.symm (regular.slotless c hc)
    have refusedStart := regular.refused_start Markup.slotEnd_refusesOthers hc hslot attributes
    have refusedFinish := regular.refused_finish Markup.slotEnd_refusesOthers hc hslot
    exact Skips.append_iff.2 ⟨.of_ite opens (regular.tagless_start hc attributes)
      (regular.opensOnce_start hc attributes) fun _ => refusedStart _,
      Skips.append_iff.2 ⟨ihInner hinner free.1 _,
        Skips.append_iff.2 ⟨.of_ite opens (regular.tagless_finish hc) (regular.opensOnce_finish hc)
          fun _ => refusedFinish _, ihRest hrest free.2 w⟩⟩⟩
  | slot => exact absurd free id

theorem slot_rewrites (regular : compiler.Regular) (t : Target) (passed : List (Stage × List Char)) :
    Markup.slot.Rewrites (fun found => Directive.slot found.name found.contents) compiler.components
      (compiler.halfway passed) (compiler.halfway (Stage.slot.key t :: passed)) where
  tags := Markup.slot_readsTags
  void d hd attributes w := by
    refine replace_other Markup.slot_readsTags (Stage.key_ne (by decide) _ _)
      (regular.tagless_void hd attributes) (regular.opensOnce_void hd attributes) fun _ => ?_
    exact regular.refused_void Markup.slot_refusesOthers hd (Ne.symm (regular.slotless d hd))
      attributes w
  start d hd attributes ending w _ := by
    refine replace_other Markup.slot_readsTags (Stage.key_ne (by decide) _ _)
      (regular.tagless_start hd attributes) (regular.opensOnce_start hd attributes) fun _ => ?_
    exact regular.refused_start Markup.slot_refusesOthers hd (Ne.symm (regular.slotless d hd))
      attributes w
  finish d hd w := by
    refine replace_other Markup.slot_readsTags (Stage.key_ne (by decide) _ _)
      (regular.tagless_finish hd) (regular.opensOnce_finish hd) fun _ => ?_
    exact regular.refused_finish Markup.slot_refusesOthers hd (Ne.symm (regular.slotless d hd)) w
  slot name plain inner free formed w ih := by
    have hnow : (Stage.slot, "slot".toList) ∈ Stage.slot.key t :: passed := List.mem_cons_self
    have hstart : (compiler.halfway (Stage.slot.key t :: passed)).slotStart name =
        compiler.directives.slotStart name := by simp only [halfway, if_pos hnow]
    have hfinish : (compiler.halfway (Stage.slot.key t :: passed)).slotFinish =
        compiler.directives.slotFinish := by simp only [halfway, if_pos hnow]
    rw [hstart, hfinish]
    by_cases hpassed : (Stage.slot, "slot".toList) ∈ passed
    · have hstart' : (compiler.halfway passed).slotStart name = compiler.directives.slotStart name := by
        simp only [halfway, if_pos hpassed]
      have hfinish' : (compiler.halfway passed).slotFinish = compiler.directives.slotFinish := by
        simp only [halfway, if_pos hpassed]
      rw [hfinish'] at ih ⊢
      rw [hstart', Pattern.replace_append_of_not_mem Markup.slot_readsTags (tagless_slotStart plain),
        ih, Pattern.replace_append_of_not_mem Markup.slot_readsTags tagless_slotFinish]
    · have hstart' : (compiler.halfway passed).slotStart name = compiler.source.slotStart name := by
        simp only [halfway, if_neg hpassed]
      have hfinish' : (compiler.halfway passed).slotFinish = compiler.source.slotFinish := by
        simp only [halfway, if_neg hpassed]
      have hinner : inner.render (compiler.halfway (Stage.slot.key t :: passed)) =
          inner.render (compiler.halfway passed) := by
        have hsame {stage : Stage} (hstage : stage ≠ .slot) (d : Component) :
            (stage.key (compiler.target d) ∈ Stage.slot.key t :: passed) =
              (stage.key (compiler.target d) ∈ passed) := by
          simp [Stage.key_ne hstage (compiler.target d) t]
        refine Document.render_congr formed (fun d _ attributes => ?_) (fun d _ attributes => ?_)
          (fun d _ => ?_) (.inl free)
        · simp only [halfway, hsame (by decide : Stage.selfClosing ≠ .slot)]
        · simp only [halfway, hsame (by decide : Stage.opening ≠ .slot)]
        · simp only [halfway, hsame (by decide : Stage.closing ≠ .slot)]
      have hmatch : Markup.slot.match? (compiler.source.slotStart name ++
          (inner.render (compiler.halfway passed) ++ (compiler.source.slotFinish ++ w))) =
            some (⟨name, inner.render (compiler.halfway passed)⟩, w) :=
        Markup.slot?_source plain (regular.skips_slotEnd? formed free _)
      rw [hstart', hfinish', hinner, Pattern.replace_of_match hmatch, directive_slot_append]

/-! ## Stages -/

/-- A stage writes its own tags as directives and leaves everything else in the document. -/
theorem rewrite_render (regular : compiler.Regular) (hc : c ∈ compiler.components) {stage : Stage}
    (order : stage = .opening → Stage.selfClosing.key (compiler.target c) ∈ passed) {doc : Document}
    (formed : doc.WellFormed compiler.components) (clear : doc.StartsClear compiler.source []) :
    stage.rewrite (compiler.target c) (doc.render (compiler.halfway passed)) =
      doc.render (compiler.halfway (stage.key (compiler.target c) :: passed)) := by
  have clear' : doc.StartsClear (compiler.halfway passed) [] :=
    clear.of_calmer (regular.calmer_halfway passed) formed fun _ h => h
  have whole {α : Type} {p : Pattern α} {f : α → List Char}
      (rewrites : p.Rewrites f compiler.components (compiler.halfway passed)
        (compiler.halfway (stage.key (compiler.target c) :: passed))) :
      p.replace f (doc.render (compiler.halfway passed)) =
        doc.render (compiler.halfway (stage.key (compiler.target c) :: passed)) := by
    simpa using Document.replace_render rewrites formed clear'
  cases stage with
  | slot => exact whole (regular.slot_rewrites _ passed)
  | selfClosing => exact whole (regular.selfClosing_rewrites hc passed)
  | opening => exact whole (regular.opening_rewrites hc (order rfl))
  | closing => exact whole (regular.closing_rewrites hc passed)

end Compiler.Regular

end ComponentTags
