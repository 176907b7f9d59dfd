import ComponentTags.Proofs.FixedPoint

/-!
# Components that a template does not use

A component whose name occurs neither in the template nor in what the components before it put into
directives finds none of its tags. It still runs the slot stage once more, so the components behind it
start from a text in which the slots that earlier ones left inside others are replaced.
-/

namespace ComponentTags

open Attribute (bindMarker)

theorem noHead_of_not_within {name s : List Char} (h : ¬ name <:+: s) : NoHead name s := by
  rintro head ⟨gap, -, rfl⟩ ⟨before, after, rfl, -⟩
  exact h ⟨before ++ '<' :: gap, after, by simp⟩

namespace Compiler

variable {compiler : Compiler} {components before after : List Component} {extra : Component}
  {t : Target} {name s : List Char}

/-- Components whose parts do not hold a name leave no tag of that name behind. -/
theorem noHead_rewriteText (isName : IsElementName name) (unmarked : ¬ bindMarker <:+: name)
    (unused : ¬ name <:+: s)
    (foreign : ∀ c ∈ components, ∀ part, Directive.IsPart compiler.spelling c [] part →
      ¬ name <:+: part) :
    NoHead name (compiler.rewriteText components s) := by
  intro head hhead hstands
  rcases standsIn_rewriteText (hhead.headLike isName) (hhead.not_marked unmarked) hstands with
    h | ⟨c, hc, part, hpart, h⟩
  · exact noHead_of_not_within unused head hhead h
  · exact noHead_of_not_within (foreign c hc part hpart) head hhead h

/-- All stages of a component that finds none of its tags: only slots are replaced. -/
theorem rewriteStages_all_of_noHead (isName : IsElementName t.elementName)
    (h : NoHead t.elementName s) :
    rewriteStages t Stage.all s = Stage.slot.rewrite t s ∧
      tallyStages t Stage.all [] s = [("slot", (Stage.slot.count t s : Int)), ("self-closing", 0),
        ("opening", 0), ("closing", 0)] := by
  have none (stage : Stage) (hstage : stage ≠ .slot) :
      stage.count t (Stage.slot.rewrite t s) = 0 := by
    apply Stage.count_eq_zero_of_noHead hstage
    intro head hhead hstands
    exact h head hhead (Stage.standsIn_rewrite_slot (hhead.headLike isName) hstands)
  have hself := none .selfClosing (by decide)
  have hopening := none .opening (by decide)
  have hclosing := none .closing (by decide)
  rw [rewriteStages_all, tallyStages_all, Stage.rewrite_of_count_eq_zero hself,
    Stage.rewrite_of_count_eq_zero hopening, Stage.rewrite_of_count_eq_zero hclosing, hself, hopening,
    hclosing]
  exact ⟨rfl, rfl⟩

/-- The name of a component occurs neither in a template nor in a part that the directives of a
compilation take over from its components, and it does not hold the marker of bound attributes. -/
structure Unused (compiler : Compiler) (extra : Component) (text : String) : Prop where
  template : ¬ (compiler.target extra).elementName <:+: text.toList
  parts : ∀ c ∈ compiler.components, ∀ part, Directive.IsPart compiler.spelling c [] part →
    ¬ (compiler.target extra).elementName <:+: part
  unmarked : ¬ bindMarker <:+: (compiler.target extra).elementName

/-- A text with every slot replaced once. -/
def replaceSlots (text : String) : String :=
  String.ofList
    (Markup.slot.replace (fun found => Directive.slot found.name found.contents) text.toList)

theorem toList_replaceSlots (t : Target) (text : String) :
    (replaceSlots text).toList = Stage.slot.rewrite t text.toList :=
  String.toList_ofList

/-- The number of slots that are found in a text. -/
def slotCount (text : String) : Nat :=
  Markup.slot.count text.toList

theorem replaceSlots_of_slotCount {text : String} (h : slotCount text = 0) :
    replaceSlots text = text := by
  have same := Pattern.replace_of_absent
    (f := fun found => Directive.slot found.name found.contents) (Pattern.count_eq_zero_iff.1 h)
  rw [replaceSlots, same, String.ofList_toList]

/-- Behind any text, components start with a slot stage: one more before it changes nothing if it leaves no
slot. -/
theorem rewriteText_replaceSlots (start : Option String) (spelling : Option Directive.Spelling)
    {middle : String}
    (h : if after = [] then slotCount middle = 0 else slotCount (replaceSlots middle) = 0) :
    (ofList after start spelling).rewriteText after (replaceSlots middle).toList =
      (ofList after start spelling).rewriteText after middle.toList := by
  cases after with
  | nil =>
    rw [if_pos rfl] at h
    rw [replaceSlots_of_slotCount h]
  | cons c after =>
    rw [if_neg (List.cons_ne_nil c after)] at h
    have slots (s : List Char) :
        rewriteStages ((ofList (c :: after) start spelling).target c) Stage.all s =
          rewriteStages ((ofList (c :: after) start spelling).target c)
            [.selfClosing, .opening, .closing] (replaceSlots (String.ofList s)).toList := by
      simp only [rewriteStages, Stage.all, List.foldl_cons, List.foldl_nil, Stage.rewrite,
        replaceSlots, String.toList_ofList]
    have hstages : (ofList (c :: after) start spelling).stages = Stage.all := rfl
    rw [rewriteText_cons, rewriteText_cons, hstages, slots, slots middle.toList,
      String.ofList_toList, String.ofList_toList, replaceSlots_of_slotCount h]

/-- What components report does not depend on which other components the compiler lists. -/
theorem reports_ofList (listed other : List Component) {start : Option String}
    {spelling : Option Directive.Spelling} :
    (ofList listed start spelling).reports components s =
      (ofList other start spelling).reports components s := by
  induction components generalizing s with
  | nil => rfl
  | cons c rest ih =>
    rw [reports, reports, ih]
    rfl

section Insertion

variable {start : Option String} {spelling : Option Directive.Spelling} {middle : String}
  (hmiddle : middle.toList = (ofList before start spelling).rewriteText before s)
  (isName : IsElementName ((ofList before start spelling).target extra).elementName)
  (absent : NoHead ((ofList before start spelling).target extra).elementName middle.toList)

include hmiddle isName absent

/-- The components behind an inserted one start from the text in which it replaced the slots. -/
theorem rewriteText_insert :
    (ofList (before ++ extra :: after) start spelling).rewriteText (before ++ extra :: after) s =
      (ofList after start spelling).rewriteText after (replaceSlots middle).toList := by
  obtain ⟨hstages, -⟩ := rewriteStages_all_of_noHead isName absent
  rw [toList_replaceSlots ((ofList before start spelling).target extra), ← hstages, hmiddle,
    rewriteText_append, rewriteText_cons]
  rfl

/-- The report of an inserted component stands between those of the other ones and counts slots only. -/
theorem reports_insert :
    (ofList (before ++ extra :: after) start spelling).reports (before ++ extra :: after) s =
      (ofList before start spelling).reports before s ++
        ⟨extra.tag, extra.view, [("slot", (slotCount middle : Int)), ("self-closing", 0),
          ("opening", 0), ("closing", 0)]⟩ ::
        (ofList after start spelling).reports after (replaceSlots middle).toList := by
  obtain ⟨hstages, htally⟩ := rewriteStages_all_of_noHead isName absent
  have hfirst : (ofList (before ++ extra :: after) start spelling).reports before s =
      (ofList before start spelling).reports before s := reports_ofList _ _
  have hrest (s : List Char) : (ofList (before ++ extra :: after) start spelling).reports after s =
      (ofList after start spelling).reports after s := reports_ofList _ _
  rw [reports_append, reports, hfirst, hrest,
    toList_replaceSlots ((ofList before start spelling).target extra), ← hstages, hmiddle]
  congr 2
  exact congrArg (ComponentReport.mk extra.tag extra.view) (hmiddle ▸ htally)

end Insertion

/-- A component whose name occurs nowhere reports no tags, wherever it is inserted, and the components
behind it compile the text that one more slot stage leaves. So the compiled text is the same as without
it if that stage finds no slot or, with components behind it, leaves none. -/
theorem compile_insert {start : Option String} {spelling : Option Directive.Spelling}
    (accepted : (ofList (before ++ extra :: after) start spelling).Accepts
      (before ++ extra :: after))
    {text : String} (unused : (ofList before start spelling).Unused extra text) :
    ∃ middle first compiled second,
      (ofList before start spelling).compile text = .ok (middle, first) ∧
      (ofList after start spelling).compile (replaceSlots middle) = .ok (compiled, second) ∧
      (ofList (before ++ extra :: after) start spelling).compile text =
        .ok (compiled, ⟨first.tagPrefix, first.components ++ ⟨extra.tag, extra.view,
          [("slot", (slotCount middle : Int)), ("self-closing", 0), ("opening", 0),
            ("closing", 0)]⟩ :: second.components⟩) ∧
      ((if after = [] then slotCount middle = 0 else slotCount (replaceSlots middle) = 0) →
        (ofList (before ++ after) start spelling).result? text = some compiled) := by
  have acceptedBefore : (ofList before start spelling).Accepts before := fun c hc =>
    accepted c (List.mem_append_left _ hc)
  have acceptedExtra : ((ofList before start spelling).target extra).nameFault? = none :=
    accepted extra (List.mem_append_right _ List.mem_cons_self)
  have acceptedAfter : (ofList after start spelling).Accepts after := fun c hc =>
    accepted c (List.mem_append_right _ (List.mem_cons_of_mem _ hc))
  have acceptedRest : (ofList (before ++ after) start spelling).Accepts (before ++ after) := by
    intro c hc
    rcases List.mem_append.1 hc with hc | hc
    · exact acceptedBefore c hc
    · exact acceptedAfter c hc
  have isName := Target.elementName_isElementName acceptedExtra
  let middle := String.ofList ((ofList before start spelling).rewriteText before text.toList)
  have hmiddle : middle.toList =
      (ofList before start spelling).rewriteText before text.toList := String.toList_ofList
  have absent : NoHead ((ofList before start spelling).target extra).elementName middle.toList := by
    rw [hmiddle]
    exact noHead_rewriteText isName unused.unmarked unused.template unused.parts
  refine ⟨middle, _, _, _, compile_of_accepts acceptedBefore text,
    compile_of_accepts acceptedAfter _, ?_, fun hcount => ?_⟩
  · have compiled := compile_of_accepts accepted text
    have hcomponents : (ofList (before ++ extra :: after) start spelling).components =
        before ++ extra :: after := rfl
    rw [compiled, hcomponents, rewriteText_insert hmiddle isName absent,
      reports_insert hmiddle isName absent]
    rfl
  · have compiled := result?_of_accepts acceptedRest text
    have hcomponents : (ofList (before ++ after) start spelling).components = before ++ after := rfl
    have hcompiled : (ofList after start spelling).components = after := rfl
    have hsame := rewriteText_replaceSlots start spelling hcount
    rw [compiled, hcomponents, rewriteText_append, hcompiled, hsame, hmiddle]
    rfl

/-- Beside a card, a badge is unused in every template without its name. -/
theorem badge_unused {text : String} (h : ¬ "x-badge".toList <:+: text.toList) :
    (ofList [⟨"card", "card", none⟩] (some "x-") none).Unused ⟨"badge", "badge", none⟩ text := by
  constructor
  · exact h
  · intro c hc part hpart
    rw [List.mem_singleton.1 hc] at hpart
    cases hpart with
    | view => decide +kernel
    | stack => decide +kernel
    | model given => cases given
    | key given => cases given
    | value given => cases given
  · decide +kernel

theorem compile_insert_badge :
    ((ofList [⟨"card", "card", none⟩, ⟨"badge", "badge", none⟩] (some "x-") none).Accepts
        [⟨"card", "card", none⟩, ⟨"badge", "badge", none⟩] ∧
      (ofList [⟨"card", "card", none⟩] (some "x-") none).Unused ⟨"badge", "badge", none⟩
        "<x-card/>") ∧
    ∃ middle first compiled second,
      (ofList [⟨"card", "card", none⟩] (some "x-") none).compile "<x-card/>" = .ok (middle, first) ∧
      (ofList [] (some "x-") none).compile (replaceSlots middle) = .ok (compiled, second) ∧
      (ofList [⟨"card", "card", none⟩, ⟨"badge", "badge", none⟩] (some "x-") none).compile "<x-card/>" =
        .ok (compiled, ⟨first.tagPrefix, first.components ++ ⟨"badge", "badge",
          [("slot", (slotCount middle : Int)), ("self-closing", 0), ("opening", 0),
            ("closing", 0)]⟩ :: second.components⟩) ∧
      ((if ([] : List Component) = [] then slotCount middle = 0
          else slotCount (replaceSlots middle) = 0) →
        (ofList [⟨"card", "card", none⟩] (some "x-") none).result? "<x-card/>" = some compiled) := by
  have accepted : (ofList [⟨"card", "card", none⟩, ⟨"badge", "badge", none⟩] (some "x-") none).Accepts
      [⟨"card", "card", none⟩, ⟨"badge", "badge", none⟩] := by
    intro c hc
    rcases List.mem_cons.1 hc with rfl | hc
    · decide +kernel
    · rw [List.mem_singleton.1 hc]
      decide +kernel
  have unused := @badge_unused "<x-card/>" (by decide +kernel)
  exact ⟨⟨accepted, unused⟩, @compile_insert [⟨"card", "card", none⟩] [] ⟨"badge", "badge", none⟩
    (some "x-") none accepted _ unused⟩

/-- A slot within another one is replaced by the stage of an inserted component. And the name of an
inserted component may come together in the shorthand of an attribute or behind the expression of the
context stack, and be gone again from the text that is compiled without it. -/
theorem compile_insert_conditions :
    ((ofList [⟨"card", "card", none⟩] (some "x-") none).Unused ⟨"badge", "badge", none⟩
          "<slot name=\"a\"><slot name=\"b\">x</slot></slot>" ∧
      (ofList [⟨"card", "card", none⟩] (some "x-") none).result?
          "<slot name=\"a\"><slot name=\"b\">x</slot></slot>" =
        some "@slot('a')<slot name=\"b\">x@endslot</slot>" ∧
      (ofList [⟨"card", "card", none⟩, ⟨"badge", "badge", none⟩] (some "x-") none).result?
          "<slot name=\"a\"><slot name=\"b\">x</slot></slot>" =
        some "@slot('a')@slot('b')x@endslot@endslot") ∧
    (ofList [⟨"v", "card", none⟩, ⟨"w", "y", none⟩] none (some ⟨"c", "s"⟩)).result?
        "<y ' <card x\" a=\"</ :w\"/>/>" ≠
      (ofList [⟨"v", "card", none⟩, ⟨"z", "bind:w", none⟩, ⟨"w", "y", none⟩] none
        (some ⟨"c", "s"⟩)).result? "<y ' <card x\" a=\"</ :w\"/>/>" ∧
    (ofList [⟨"v", "card", none⟩, ⟨"w", "y", none⟩] none (some ⟨"c", "</x"⟩)).result?
        "</y <card/>>" ≠
      (ofList [⟨"v", "card", none⟩, ⟨"z", "x-", none⟩, ⟨"w", "y", none⟩] none
        (some ⟨"c", "</x"⟩)).result? "</y <card/>>" := by
  refine ⟨⟨badge_unused ?_, ?_, ?_⟩, ?_, ?_⟩
  · decide +kernel
  · decide +kernel
  · decide +kernel
  · decide +kernel
  · decide +kernel

end Compiler

end ComponentTags
