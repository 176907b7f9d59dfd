import ComponentTags.Proofs.AttributeList
import ComponentTags.Proofs.FixedPoint
import ComponentTags.Proofs.SlotReading
import ComponentTags.Proofs.TagBoundary

/-!
# The value of a single attribute

A template that is one self-closing element with one quoted attribute. The stage for self-closing elements
takes the value as it is, but it is not the only stage that sees it: the slot stage runs on the value
while it still stands in the tag, and the stages for opening and closing tags run on the directive that
holds it. The template becomes the element's directive exactly if none of them finds anything.
-/

namespace ComponentTags

namespace Attribute

variable {name : List Char}

/-- Where a value is overwritten, what is emitted for it is. -/
theorem overwritten_escape {v v' : List Char} (h : Overwritten v v') :
    Overwritten (escape v) (escape v') := by
  induction h with
  | @here c s t other =>
    have hs : escape ('<' :: s) = '<' :: escape s := rfl
    by_cases hc : c = '\''
    · have ht : escape (c :: t) = '\\' :: '\'' :: escape t := by simp [escape, hc]
      rw [hs, ht]
      exact .here _ _ (by decide)
    · have ht : escape (c :: t) = c :: escape t := by simp [escape, hc]
      rw [hs, ht]
      exact .here _ _ other
  | @behind c s t later ih =>
    have hcons (u : List Char) : escape (c :: u) = escape [c] ++ escape u := escape_append [c] u
    rw [hcons s, hcons t]
    exact ih.append_left _

theorem overwritten_entry {v v' : List Char} (h : Overwritten v v') :
    (Written.mk name (some ('"' :: v ++ ['"']))).entry.1 =
        (Written.mk name (some ('"' :: v' ++ ['"']))).entry.1 ∧
      Overwritten (Written.mk name (some ('"' :: v ++ ['"']))).entry.2
        (Written.mk name (some ('"' :: v' ++ ['"']))).entry.2 := by
  have hunquote (u : List Char) : unquote ('"' :: u ++ ['"']) = u := unquote_quoted (.inl rfl) u
  unfold Written.entry
  dsimp only
  split
  · rw [hunquote, hunquote]
    exact ⟨rfl, h⟩
  · rw [hunquote, hunquote, literal_eq, literal_eq]
    exact ⟨rfl, .behind _ ((overwritten_escape h).append_right _ _)⟩

end Attribute

namespace Directive

variable {spelling : Spelling} {c : Component}

/-- A directive with one attribute starts with a text that does not depend on the attribute's value, and
that value follows. -/
theorem exists_start_eq (spelling : Spelling) (c : Component) (key : String) :
    ∃ front, ∀ value, ∃ back,
      (start spelling c [(key, value)]).toList = front ++ (value.toList ++ back) := by
  have entries (value : String) :
      (entriesText [(key, value)]).toList = '\'' :: (key.toList ++ "' => ".toList) ++ value.toList := by
    simp [entriesText]
  unfold start
  split
  · refine ⟨("@php(" ++ spelling.contextStack.plain ++ "->push([").toList ++
      '\'' :: (key.toList ++ "' => ".toList), fun value => ⟨"]))".toList, ?_⟩⟩
    simp only [String.toList_append, entries]
    simp
  · refine ⟨("@component('" ++ c.view ++ "', array_merge(" ++ spelling.contextRead ++ ", [").toList ++
      '\'' :: (key.toList ++ "' => ".toList), fun value => ?_⟩
    cases Component.modelOf c.dataModel with
    | none =>
      refine ⟨"]))".toList, ?_⟩
      simp only [String.toList_append, entries]
      simp
    | some m =>
      refine ⟨("], app(" ++ m.plain ++ "::class, " ++ ("array_merge(" ++ spelling.contextRead ++ ", " ++
        ("[" ++ entriesText [(key, value)] ++ "]")) ++ "))->toArray()))").toList, ?_⟩
      simp only [String.toList_append, entries]
      simp

/-- Where the value of its attribute is overwritten, a directive is. -/
theorem overwritten_element {key value value' : String} (h : Overwritten value.toList value'.toList) :
    Overwritten (element spelling c [(key, value)]).toList
      (element spelling c [(key, value')]).toList := by
  obtain ⟨front, hfront⟩ := exists_start_eq spelling c key
  obtain ⟨back, hback⟩ := hfront value
  obtain ⟨back', hback'⟩ := hfront value'
  rw [element, element, String.toList_append, String.toList_append, hback, hback',
    List.append_assoc, List.append_assoc, List.append_assoc, List.append_assoc]
  exact (h.append_right _ _).append_left front

end Directive

namespace Markup

variable {name key v : List Char}

/-- A template that is one self-closing element. -/
def elementTemplate (name key v : List Char) : List Char :=
  '<' :: (name ++ ' ' :: (Attribute.quotedText key v ++ " />".toList))

/-- The slot stage sees the value alone. -/
theorem slot_elementTemplate (hname : IsPlainName name) (other : name ≠ "slot".toList)
    (hkey : ∀ c ∈ key, Attribute.isPlainNameChar c = true) (f : FoundSlot → List Char) :
    slot.replace f (elementTemplate name key v) =
        elementTemplate name key (slot.replace f v) ∧
      slot.count (elementTemplate name key v) = slot.count v := by
  let front := '<' :: (name ++ ' ' :: (key ++ ['=', '"']))
  let back := '"' :: " />".toList
  have hsplit (u : List Char) : elementTemplate name key u = front ++ (u ++ back) := by
    simp [elementTemplate, Attribute.quotedText, front, back]
  have hback : slot.Absent back := Pattern.absent_of_not_mem slot_readsTags (by decide)
  have hskips : Skips slot.match? front (v ++ back) := by
    refine Skips.cons_iff.2 ⟨?_, ?_⟩
    · have hends : endsName (' ' :: (key ++ ['=', '"']) ++ (v ++ back)) = true := rfl
      have hnone : slot.match? ('<' :: (name ++ (' ' :: (key ++ ['=', '"']) ++ (v ++ back)))) = none :=
        slot?_of_other hname (Ne.symm other) hends
      simpa using hnone
    · apply Skips.of_not_mem slot_readsTags.opens
      intro hmem
      rcases List.mem_append.1 hmem with hmem | hmem
      · exact hname.toElementName.not_mem (by decide) (by decide) hmem
      · rcases List.mem_cons.1 hmem with heq | hmem
        · cases heq
        · rcases List.mem_append.1 hmem with hmem | hmem
          · exact absurd (hkey _ hmem) (by decide)
          · exact absurd hmem (by decide)
  have apart (u : List Char) : slot.match? (u ++ back) =
      (slot.match? u).map fun found => (found.1, found.2 ++ back) := slot?_append (by decide)
  obtain ⟨hreplace, hcount⟩ :=
    Pattern.replace_append_of_match (f := f) slot_readsTags (s := v) fun u _ _ => apart u
  constructor
  · rw [hsplit, hsplit, Pattern.replace_append hskips, hreplace, Pattern.replace_of_absent hback]
  · rw [hsplit, Pattern.count_append hskips, hcount, Pattern.count_eq_zero_iff.2 hback]
    rfl

/-- The stage for self-closing elements takes the whole template. -/
theorem selfClosing_elementTemplate (hname : IsPlainName name)
    (hkey : ∀ c ∈ key, Attribute.isPlainNameChar c = true) (hne : key ≠ [])
    (hquote : '"' ∉ v) (hfeed : '\n' ∉ v) (f : List Char → List Char) :
    (selfClosing name).replace f (elementTemplate name key v) =
      f (Attribute.quotedText key v) := by
  have hchars : ∀ c ∈ key, Attribute.isNameChar c = true := fun c hc =>
    Attribute.isNameChar_of_isPlainNameChar (hkey c hc)
  have hend : (readLine " />".toList).here = some ([], []) := here_of_selfClosingEnd? (by decide)
  have hread := here_attribute hchars hquote hfeed hend
  have hdrop : (' ' :: (Attribute.quotedText key v ++ " />".toList)).dropWhile Text.isInlineBlank =
      key ++ '=' :: '"' :: (v ++ '"' :: " />".toList) := by
    cases key with
    | nil => exact absurd rfl hne
    | cons c key =>
      have hc := isInlineBlank_of_not_isBlank (Attribute.isBlank_of_isNameChar (hchars c (by simp)))
      rw [List.dropWhile_cons_of_pos (by decide), Attribute.quotedText, List.cons_append,
        List.cons_append, List.dropWhile_cons_of_neg (by simp [hc])]
      simp
  have hmatch : (selfClosing name).match? (elementTemplate name key v) =
      some (Attribute.quotedText key v, []) :=
    selfClosing?_of_here hname.toTagName rfl (by rw [hdrop]; exact hread)
  rw [Pattern.replace_of_match hmatch, Pattern.replace_nil, List.append_nil]

/-- Replacing slots brings in no character but those of the frame of their directives. -/
theorem not_mem_slot_replace {x : Char} (hopen : x ∉ "@slot('".toList) (hname : x ∉ "')".toList)
    (hclose : x ∉ "@endslot".toList) (h : x ∉ v) :
    x ∉ slot.replace (fun found => Directive.slot found.name found.contents) v := by
  intro hmem
  rcases Pattern.mem_replace slot_readsTags hmem with hmem | ⟨t, found, rest, ht, hmatch, hmem⟩
  · exact h hmem
  · obtain ⟨hfound, hcontents⟩ := standsIn_of_slot? hmatch
    have hnot : x ∉ t := fun hmem => h (ht.subset hmem)
    unfold Directive.slot at hmem
    rcases List.mem_append.1 hmem with hmem | hmem
    · rcases List.mem_append.1 hmem with hmem | hmem
      · rcases List.mem_append.1 hmem with hmem | hmem
        · rcases List.mem_append.1 hmem with hmem | hmem
          · exact hopen hmem
          · exact hnot (hfound.subset hmem)
        · exact hname hmem
      · exact hnot (hcontents.subset hmem)
    · exact hclose hmem

end Markup

namespace Compiler

variable {t : Target} {key v : List Char}

/-- Where the value of its only attribute is overwritten, the directive of an element is. -/
theorem overwritten_elementText (hkey : ∀ c ∈ key, Attribute.isPlainNameChar c = true)
    (hne : key ≠ []) {v' : List Char} (hquote : '"' ∉ v) (hquote' : '"' ∉ v')
    (h : Overwritten v v') :
    Overwritten (t.elementText (Attribute.quotedText key v))
      (t.elementText (Attribute.quotedText key v')) := by
  obtain ⟨hsame, hover⟩ := @Attribute.overwritten_entry key _ _ h
  rw [Target.elementText, Target.elementText, Attribute.parse_quotedText hkey hne hquote,
    Attribute.parse_quotedText hkey hne hquote', hsame]
  apply Directive.overwritten_element
  rw [String.toList_ofList, String.toList_ofList]
  exact hover

/-- What all stages of one component do to a template that is its element. -/
theorem rewriteStages_elementTemplate_iff (hname : IsPlainName t.elementName)
    (other : t.elementName ≠ "slot".toList) (hkey : ∀ c ∈ key, Attribute.isPlainNameChar c = true)
    (hne : key ≠ []) (hquote : '"' ∉ v) (hfeed : '\n' ∉ v) :
    rewriteStages t Stage.all (Markup.elementTemplate t.elementName key v) =
        t.elementText (Attribute.quotedText key v) ↔
      Markup.slot.count v = 0 ∧
        (Markup.opening t.elementName).count (t.elementText (Attribute.quotedText key v)) = 0 ∧
        (Markup.closing t.elementName).count (t.elementText (Attribute.quotedText key v)) = 0 := by
  let v' := Markup.slot.replace (fun found => Directive.slot found.name found.contents) v
  have hquote' : '"' ∉ v' := Markup.not_mem_slot_replace (by decide) (by decide) (by decide) hquote
  have hfeed' : '\n' ∉ v' := Markup.not_mem_slot_replace (by decide) (by decide) (by decide) hfeed
  have hslot := (Markup.slot_elementTemplate (v := v) hname other hkey
    fun found => Directive.slot found.name found.contents).1
  have hself := Markup.selfClosing_elementTemplate hname hkey hne hquote' hfeed' t.elementText
  have hstages : rewriteStages t Stage.all (Markup.elementTemplate t.elementName key v) =
      rewriteStages t [.opening, .closing] (t.elementText (Attribute.quotedText key v')) := by
    simp only [rewriteStages, Stage.all, List.foldl_cons, List.foldl_nil, Stage.rewrite]
    rw [hslot, hself]
  rw [hstages]
  have later := rewriteStages_eq_or_overwritten t [.opening, .closing]
  rcases Pattern.replace_eq_or_overwritten Markup.slot_readsTags
      (fun found => (Directive.sealed_slot found.name found.contents).coversTag) v with
    ⟨hzero, hsame⟩ | ⟨hsome, hover⟩
  · have hv : v' = v := hsame
    rw [hv]
    rcases later (t.elementText (Attribute.quotedText key v)) with ⟨hall, hkept⟩ | ⟨hfound, hover⟩
    · have hopening := hall .opening (by simp)
      have hclosing := hall .closing (by simp)
      exact ⟨fun _ => ⟨hzero, hopening, hclosing⟩, fun _ => hkept⟩
    · constructor
      · intro hkept
        exact absurd hkept.symm hover.ne
      · rintro ⟨-, hopening, hclosing⟩
        obtain ⟨stage, hstage, hcount⟩ := hfound
        rcases List.mem_cons.1 hstage with rfl | hstage
        · exact absurd hopening hcount
        · rw [List.mem_singleton.1 hstage] at hcount
          exact absurd hclosing hcount
  · -- an overwritten value can be seen in the directive, and no later stage brings it back
    have first : Overwritten (t.elementText (Attribute.quotedText key v))
        (t.elementText (Attribute.quotedText key v')) :=
      overwritten_elementText hkey hne hquote hquote' hover
    have whole : Overwritten (t.elementText (Attribute.quotedText key v))
        (rewriteStages t [.opening, .closing] (t.elementText (Attribute.quotedText key v'))) := by
      rcases later (t.elementText (Attribute.quotedText key v')) with ⟨-, hkept⟩ | ⟨-, hover'⟩
      · rwa [hkept]
      · exact first.trans hover'
    constructor
    · intro hkept
      exact absurd hkept.symm whole.ne
    · rintro ⟨hzero, -⟩
      exact absurd hzero hsome

/-- A name that stands neither in the value nor in a part of the component stands nowhere in the
directive. -/
theorem noHead_elementText {name : List Char} (isName : IsElementName name)
    (hkey : ∀ c ∈ key, Attribute.isPlainNameChar c = true) (hne : key ≠ []) (hquote : '"' ∉ v)
    (hvalue : NoHead name v)
    (hparts : ∀ part, Directive.IsPart t.spelling t.component [] part → NoHead name part) :
    NoHead name (t.elementText (Attribute.quotedText key v)) := by
  apply Directive.noHead_of_framed isName Directive.framed_element _ hparts
  intro k value given head hhead hstands
  rw [Attribute.parse_quotedText hkey hne hquote] at given
  obtain ⟨-, rfl⟩ := Prod.mk.inj (List.mem_singleton.1 given)
  rw [String.toList_ofList] at hstands
  obtain ⟨u, hu, hin⟩ := Attribute.standsIn_of_entry (hhead.headLike isName) hstands
  cases hu
  rw [Attribute.unquote_quoted (.inl rfl)] at hin
  exact hvalue head hhead hin

/-- The directive of an element with one attribute whose value is in double quotes. -/
def emitted (compiler : Compiler) (c : Component) (key v : String) : String :=
  Directive.element compiler.spelling c (Attribute.parse (key ++ "=\"" ++ v ++ "\"").toList)

theorem toList_template (t : Target) (key v : String) :
    ("<" ++ t.component.element t.tagPrefix ++ " " ++ (key ++ "=\"" ++ v ++ "\"") ++ " />").toList =
      Markup.elementTemplate t.elementName key.toList v.toList := by
  rw [Markup.elementTemplate, Attribute.quotedText, Target.elementName]
  simp

theorem toList_emitted (compiler : Compiler) (c : Component) (key v : String) :
    (compiler.emitted c key v).toList =
      (compiler.target c).elementText (Attribute.quotedText key.toList v.toList) := by
  rw [emitted, Target.elementText, Attribute.quotedText]
  simp
  rfl

/-- The template that is one self-closing element with one attribute compiles to the directive of the
element exactly if the value holds no slot and the directive no opening and no closing tag of the
component. That is so if neither the value nor a part of the component holds a head of these tags. -/
theorem compile_opaque_value {c : Component} {start : Option String}
    {spelling : Option Directive.Spelling} (accepted : (ofList [c] start spelling).Accepts [c])
    (feedless : '\n' ∉ ((ofList [c] start spelling).target c).elementName)
    (other : ((ofList [c] start spelling).target c).elementName ≠ "slot".toList) {key v : String}
    (hkey : ∀ d ∈ key.toList, Attribute.isPlainNameChar d = true) (hne : key ≠ "")
    (hquote : '"' ∉ v.toList) (hfeed : '\n' ∉ v.toList) :
    ∃ compiled,
      (ofList [c] start spelling).result? ("<" ++ c.element (.text (start.getD "")) ++ " " ++
        (key ++ "=\"" ++ v ++ "\"") ++ " />") = some compiled ∧
      (compiled = (ofList [c] start spelling).emitted c key v ↔
        Markup.slot.count v.toList = 0 ∧
        (Markup.opening ((ofList [c] start spelling).target c).elementName).count
          ((ofList [c] start spelling).emitted c key v).toList = 0 ∧
        (Markup.closing ((ofList [c] start spelling).target c).elementName).count
          ((ofList [c] start spelling).emitted c key v).toList = 0) ∧
      (NoHead "slot".toList v.toList →
        NoHead ((ofList [c] start spelling).target c).elementName v.toList →
        (∀ part, Directive.IsPart (spelling.getD {}) c [] part →
          NoHead ((ofList [c] start spelling).target c).elementName part) →
        compiled = (ofList [c] start spelling).emitted c key v) := by
  let t := (ofList [c] start spelling).target c
  have isName : IsElementName t.elementName := Target.elementName_isElementName (accepted c (by simp))
  have isPlain : IsPlainName t.elementName := isName.toPlainName feedless
  have hne' : key.toList ≠ [] := fun hnil => hne (String.toList_eq_nil_iff.1 hnil)
  have hemitted := toList_emitted (ofList [c] start spelling) c key v
  have hiff := rewriteStages_elementTemplate_iff isPlain other hkey hne' hquote hfeed
  rw [← hemitted] at hiff
  have hrewrite : (ofList [c] start spelling).rewriteText [c]
      ("<" ++ c.element (.text (start.getD "")) ++ " " ++ (key ++ "=\"" ++ v ++ "\"") ++ " />").toList =
      rewriteStages t Stage.all (Markup.elementTemplate t.elementName key.toList v.toList) :=
    congrArg (rewriteStages t Stage.all) (toList_template t key v)
  have hcompiled : String.ofList ((ofList [c] start spelling).rewriteText [c]
      ("<" ++ c.element (.text (start.getD "")) ++ " " ++ (key ++ "=\"" ++ v ++ "\"") ++ " />").toList) =
      (ofList [c] start spelling).emitted c key v ↔
      rewriteStages t Stage.all (Markup.elementTemplate t.elementName key.toList v.toList) =
        ((ofList [c] start spelling).emitted c key v).toList := by
    rw [hrewrite, ← String.toList_inj, String.toList_ofList]
  refine ⟨_, result?_of_accepts accepted _, hcompiled.trans hiff, ?_⟩
  intro hslot hvalue hparts
  have absent : NoHead t.elementName ((ofList [c] start spelling).emitted c key v).toList := by
    rw [hemitted]
    exact noHead_elementText isName hkey hne' hquote hvalue hparts
  have hopening : Stage.opening.count t _ = 0 := Stage.count_eq_zero_of_noHead (by decide) absent
  have hclosing : Stage.closing.count t _ = 0 := Stage.count_eq_zero_of_noHead (by decide) absent
  have hslots : Stage.slot.count t _ = 0 := Stage.slot_count_eq_zero_of_noHead hslot
  exact hcompiled.2 (hiff.2 ⟨hslots, hopening, hclosing⟩)

/-- A value with markup that no stage looks for. -/
theorem compile_opaque_value_of_markup :
    ('\n' ∉ (forCard.target ⟨"card", "card", none⟩).elementName ∧
      (forCard.target ⟨"card", "card", none⟩).elementName ≠ "slot".toList ∧
      (∀ d ∈ "title".toList, Attribute.isPlainNameChar d = true) ∧ "title" ≠ "" ∧
      '"' ∉ "<b>".toList ∧ '\n' ∉ "<b>".toList) ∧
    ∃ compiled,
      forCard.result? ("<" ++ Component.element ⟨"card", "card", none⟩ "x-" ++ " " ++
        ("title" ++ "=\"" ++ "<b>" ++ "\"") ++ " />") = some compiled ∧
      (compiled = forCard.emitted ⟨"card", "card", none⟩ "title" "<b>" ↔
        Markup.slot.count "<b>".toList = 0 ∧
        (Markup.opening (forCard.target ⟨"card", "card", none⟩).elementName).count
          (forCard.emitted ⟨"card", "card", none⟩ "title" "<b>").toList = 0 ∧
        (Markup.closing (forCard.target ⟨"card", "card", none⟩).elementName).count
          (forCard.emitted ⟨"card", "card", none⟩ "title" "<b>").toList = 0) ∧
      (NoHead "slot".toList "<b>".toList →
        NoHead (forCard.target ⟨"card", "card", none⟩).elementName "<b>".toList →
        (∀ part, Directive.IsPart (Option.getD none {}) ⟨"card", "card", none⟩ [] part →
          NoHead (forCard.target ⟨"card", "card", none⟩).elementName part) →
        compiled = forCard.emitted ⟨"card", "card", none⟩ "title" "<b>") := by
  have feedless : '\n' ∉ (forCard.target ⟨"card", "card", none⟩).elementName := by decide +kernel
  have other : (forCard.target ⟨"card", "card", none⟩).elementName ≠ "slot".toList := by
    decide +kernel
  have plain : ∀ d ∈ "title".toList, Attribute.isPlainNameChar d = true :=
    List.all_eq_true.1 (by decide +kernel)
  exact ⟨⟨feedless, other, plain, by decide, by decide, by decide⟩,
    compile_opaque_value forCard_accepts feedless other plain (by decide) (by decide) (by decide)⟩

/-- A slot in a value is replaced before the element is read, and an opening tag in it after that. -/
theorem compile_opaque_value_of_tags :
    (forCard.result? "<x-card a=\"<slot name='q'>x</slot>\" />" ≠
        some (forCard.emitted ⟨"card", "card", none⟩ "a" "<slot name='q'>x</slot>")) ∧
      forCard.result? "<x-card a=\"<x-card>\" />" ≠
        some (forCard.emitted ⟨"card", "card", none⟩ "a" "<x-card>") := by
  constructor
  · decide +kernel
  · decide +kernel

end Compiler

end ComponentTags
