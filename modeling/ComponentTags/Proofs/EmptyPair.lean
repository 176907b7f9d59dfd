import ComponentTags.Proofs.FixedPoint
import ComponentTags.Proofs.PairReading
import ComponentTags.Proofs.Rereading

/-!
# Empty pairs

A self-closing element and an opening tag with the closing tag behind it give the same directives, but on
different ways. The element is replaced as a whole, and the stages behind look through all of its text. Of
the pair the stages see the two tags one after the other: the opening tag refuses a hyphen in front of its
`>`, the pair may be a slot, and the directive that replaces the closing tag is not looked through again.
-/

namespace ComponentTags

/-- Both tags of an empty pair are read as such: the opening tag does not end in the hyphen of its name,
and the two are no slot. -/
structure Target.ReadsPair (t : Target) (attributes : List TagAttribute) : Prop where
  ending : attributes = [] → t.elementName.getLast? ≠ some '-'
  noSlot : Markup.slot.count (Markup.pairText t.elementName attributes) = 0

namespace Compiler

open Markup (pairText voidText)
open TagAttribute (listText EndsOpenly)

variable {t : Target} {attributes : List TagAttribute}

/-- A self-closing element is replaced, and the stages for tags look through its directives. -/
theorem rewriteStages_voidText (hname : IsTagName t.elementName) (attributes : List TagAttribute) :
    rewriteStages t Stage.all (voidText t.elementName attributes) =
      rewriteStages t [.opening, .closing] (t.elementText (listText attributes)) := by
  have htagless : '<' ∉ t.elementName ++ (listText attributes ++ " />".toList) := by
    have hmem : '<' ∉ t.elementName := hname.not_mem (by decide) (by decide)
    simp [hmem, TagAttribute.tagless_listText attributes]
  have hslot : Stage.slot.rewrite t (voidText t.elementName attributes) =
      voidText t.elementName attributes :=
    Pattern.replace_of_absent (Markup.slot_absent_of_tagless htagless)
  have hself : Stage.selfClosing.rewrite t (voidText t.elementName attributes) =
      t.elementText (listText attributes) := by
    have hmatch : (Markup.selfClosing t.elementName).match? (voidText t.elementName attributes ++ []) =
        some ((listText attributes).tail, []) := Markup.selfClosing?_source hname attributes []
    rw [List.append_nil] at hmatch
    have hreplace := Pattern.replace_of_match (f := t.elementText) hmatch
    rw [Pattern.replace_nil, List.append_nil, Target.elementText, Attribute.parse_tail_listText]
      at hreplace
    exact hreplace
  rw [rewriteStages_all, hslot, hself]
  rfl

/-- The opening tag of a pair is replaced, and the closing tag is left. -/
theorem opening_pairText (hname : IsTagName t.elementName) (ending : EndsOpenly attributes)
    (reads : t.ReadsPair attributes) :
    Stage.opening.rewrite t (pairText t.elementName attributes) =
        t.startText (listText attributes) ++ '<' :: '/' :: (t.elementName ++ ['>']) ∧
      Stage.opening.count t (pairText t.elementName attributes) = 1 := by
  have tags := Markup.opening_readsTags t.elementName
  have habsent := Markup.absent_finishText tags hname.toIsElementName
    (Markup.opening?_of_slash hname.toIsElementName (t.elementName ++ ['>']))
  have hmatch : (Markup.opening t.elementName).match? (pairText t.elementName attributes) =
      some (listText attributes, '<' :: '/' :: (t.elementName ++ ['>'])) :=
    Markup.opening?_source hname reads.ending ending _
  have hreplace := Pattern.replace_of_match (f := t.startText) hmatch
  have hcount := Pattern.count_of_match hmatch
  rw [Pattern.replace_of_absent habsent] at hreplace
  rw [Pattern.count_eq_zero_iff.2 habsent] at hcount
  exact ⟨hreplace, hcount⟩

/-- The stages replace both tags of a pair that is read as such, and what closing tags they find in the
directive of the opening one. -/
theorem rewriteStages_pairText (hname : IsTagName t.elementName) (ending : EndsOpenly attributes)
    (reads : t.ReadsPair attributes) :
    rewriteStages t Stage.all (pairText t.elementName attributes) =
        Stage.closing.rewrite t (t.startText (listText attributes)) ++ t.finishText ∧
      tallyStages t Stage.all [] (pairText t.elementName attributes) =
        [("slot", 0), ("self-closing", 0), ("opening", 1),
          ("closing", ((Stage.closing.count t (t.startText (listText attributes)) + 1 : Nat) : Int))] := by
  have hslot : Stage.slot.count t (pairText t.elementName attributes) = 0 := reads.noSlot
  have hself : Stage.selfClosing.count t (pairText t.elementName attributes) = 0 :=
    Pattern.count_eq_zero_iff.2 (Markup.selfClosing_absent_pairText hname.toIsElementName attributes)
  have hopening := opening_pairText hname ending reads
  have hmatch : (Markup.closing t.elementName).match?
      ('<' :: '/' :: (t.elementName ++ ['>']) ++ []) = some ((), []) := Markup.closing?_source hname []
  rw [List.append_nil] at hmatch
  have hfinish : Stage.closing.rewrite t ('<' :: '/' :: (t.elementName ++ ['>'])) = t.finishText := by
    have hreplace := Pattern.replace_of_match (f := fun _ => t.finishText) hmatch
    rw [Pattern.replace_nil, List.append_nil] at hreplace
    exact hreplace
  have hone : Stage.closing.count t ('<' :: '/' :: (t.elementName ++ ['>'])) = 1 := by
    have hfound := Pattern.count_of_match hmatch
    rw [Pattern.count_nil] at hfound
    exact hfound
  obtain ⟨hclosing, hcount⟩ := Target.closing_startText_append hname.toIsElementName
    (fun _ _ => TagAttribute.not_mem_entry (.inl rfl)) ('<' :: '/' :: (t.elementName ++ ['>']))
  rw [hfinish] at hclosing
  rw [hone] at hcount
  rw [rewriteStages_all, tallyStages_all, Stage.rewrite_of_count_eq_zero hslot,
    Stage.rewrite_of_count_eq_zero hself, hopening.1, hclosing, hslot, hself, hopening.2, hcount]
  exact ⟨rfl, rfl⟩

/-- A pair that gives the text of the element has both of its tags read. -/
theorem readsPair_of_eq (hname : IsTagName t.elementName)
    (h : rewriteStages t Stage.all (voidText t.elementName attributes) =
      rewriteStages t Stage.all (pairText t.elementName attributes)) : t.ReadsPair attributes := by
  -- the text of the element shows its first directive
  obtain ⟨d, r, hstart, hd, hs⟩ :=
    Directive.exists_start_eq_cons t.spelling t.component (Attribute.parse (listText attributes))
  have hvoid : rewriteStages t Stage.all (voidText t.elementName attributes) =
      ['@', d] ++ rewriteStages t [.opening, .closing] (r ++ t.finishText) := by
    rw [rewriteStages_voidText hname, t.elementText_eq_append, Target.startText, hstart]
    exact rewriteStages_append_of_not_mem _ (u := ['@', d]) (by simpa using Ne.symm hd) _
  by_cases hslot : Stage.slot.count t (pairText t.elementName attributes) = 0
  · refine ⟨?_, hslot⟩
    rintro rfl hlast
    have hself : Stage.selfClosing.count t (pairText t.elementName []) = 0 :=
      Pattern.count_eq_zero_iff.2 (Markup.selfClosing_absent_pairText hname.toIsElementName [])
    have hopening : Stage.opening.count t (pairText t.elementName []) = 0 :=
      Pattern.count_eq_zero_iff.2 (Markup.absent_pairText (Markup.opening_readsTags _)
        hname.toIsElementName (Markup.opening?_pairText_of_hyphen hname hlast)
        (Markup.opening?_of_slash hname.toIsElementName (t.elementName ++ ['>'])))
    have hclosing : ∃ s, Stage.closing.rewrite t (pairText t.elementName []) = '<' :: s := by
      have hshape : pairText t.elementName [] =
          '<' :: (t.elementName ++ '>' :: '<' :: '/' :: (t.elementName ++ ['>'])) := by
        simp [pairText]
      have hnone : (Markup.closing t.elementName).match?
          ('<' :: (t.elementName ++ '>' :: '<' :: '/' :: (t.elementName ++ ['>']))) = none :=
        Markup.closing?_of_name hname.toIsElementName _
      rw [hshape]
      exact ⟨_, Pattern.replace_cons_of_none hnone⟩
    obtain ⟨s, hkept⟩ := hclosing
    rw [hvoid, rewriteStages_all, Stage.rewrite_of_count_eq_zero hslot,
      Stage.rewrite_of_count_eq_zero hself, Stage.rewrite_of_count_eq_zero hopening, hkept] at h
    cases h
  · obtain ⟨found, rest, hmatch⟩ := Markup.exists_slot?_of_count hname.toIsElementName hslot
    have hfirst : Stage.slot.rewrite t (pairText t.elementName attributes) =
        ['@', 's'] ++ _ := Pattern.replace_of_match (p := Markup.slot) hmatch
    have hpair : rewriteStages t Stage.all (pairText t.elementName attributes) =
        ['@', 's'] ++ _ :=
      (congrArg (rewriteStages t [.selfClosing, .opening, .closing]) hfirst).trans
        (rewriteStages_append_of_not_mem _ (by decide) _)
    rw [hvoid, hpair] at h
    exact absurd (List.cons.inj (List.cons.inj h).2).1 hs

/-- The directives of the element are those of the pair exactly if both tags of the pair are read as such and
no stage finds a tag in the directives that it does not find in those of the pair. -/
theorem rewriteStages_voidText_eq_iff (hname : IsTagName t.elementName) (ending : EndsOpenly attributes) :
    rewriteStages t Stage.all (voidText t.elementName attributes) =
        rewriteStages t Stage.all (pairText t.elementName attributes) ↔
      t.ReadsPair attributes ∧ Stage.opening.count t (t.elementText (listText attributes)) = 0 ∧
        Stage.closing.count t t.finishText = 0 := by
  have entries (key value : String) (given : (key, value) ∈ Attribute.parse (listText attributes)) :
      '<' ∉ key.toList ∧ '<' ∉ value.toList := TagAttribute.not_mem_entry (.inl rfl) given
  have hreread := Target.reread_eq_iff hname.toIsElementName entries
  have hvoid : rewriteStages t Stage.all (voidText t.elementName attributes) =
      Stage.closing.rewrite t (Stage.opening.rewrite t (t.elementText (listText attributes))) :=
    rewriteStages_voidText hname attributes
  constructor
  · intro h
    have reads := readsPair_of_eq hname h
    rw [hvoid, (rewriteStages_pairText hname ending reads).1] at h
    exact ⟨reads, hreread.1 h⟩
  · rintro ⟨reads, hnone⟩
    rw [hvoid, (rewriteStages_pairText hname ending reads).1]
    exact hreread.2 hnone

/-- Where no tag of the component stands in one of its parts, its directives hold none. -/
theorem count_directives_eq_zero (hname : IsElementName t.elementName) (attributes : List TagAttribute)
    (parts : ∀ part, Directive.IsPart t.spelling t.component [] part → NoHead t.elementName part) :
    Stage.opening.count t (t.elementText (listText attributes)) = 0 ∧
      Stage.closing.count t t.finishText = 0 := by
  have values (key value : String)
      (given : (key, value) ∈ Attribute.parse (listText attributes)) :
      NoHead t.elementName value.toList := by
    intro head hhead
    exact (hhead.headLike hname).not_of_not_mem (TagAttribute.not_mem_entry (.inl rfl) given).2
  have helement : NoHead t.elementName (t.elementText (listText attributes)) :=
    Directive.noHead_of_framed hname Directive.framed_element values parts
  have hfinish : NoHead t.elementName t.finishText :=
    Directive.noHead_of_framed hname Directive.framed_finish values parts
  exact ⟨Stage.count_eq_zero_of_noHead (by decide) helement,
    Stage.count_eq_zero_of_noHead (by decide) hfinish⟩

/-- A self-closing element and the empty pair with the same attributes are compiled for a single component.
They give the same text exactly if both tags of the pair are read as such, the directives of the element hold
no opening tag of the component, and the last one holds no closing tag. Tags that are read as such are both
replaced. A pair is a slot at most under the name of slots, and the directives hold no tags if the parts of
the component do not. -/
theorem compile_empty_pair {compiler : Compiler} {c : Component} (single : compiler.components = [c])
    (hstages : compiler.stages = Stage.all) (accepted : compiler.Accepts compiler.components)
    (ending : EndsOpenly attributes) :
    ∃ element pair report,
      compiler.result? (String.ofList (compiler.source.void c attributes)) = some element ∧
      compiler.compile (String.ofList (compiler.source.start c attributes ++ compiler.source.finish c)) =
        .ok (pair, report) ∧
      (element = pair ↔ (compiler.target c).ReadsPair attributes ∧
        Stage.opening.count (compiler.target c) (compiler.directives.void c attributes) = 0 ∧
        Stage.closing.count (compiler.target c) (compiler.directives.finish c) = 0) ∧
      ((compiler.target c).ReadsPair attributes →
        report.components = [⟨c.tag, c.view, [("slot", 0), ("self-closing", 0), ("opening", 1),
          ("closing", ((Stage.closing.count (compiler.target c)
            (compiler.directives.start c attributes) + 1 : Nat) : Int))]⟩]) ∧
      (Text.strip (compiler.target c).elementName ≠ "slot".toList →
        (attributes = [] → (compiler.target c).elementName.getLast? ≠ some '-') →
        (compiler.target c).ReadsPair attributes) ∧
      ((∀ part, Directive.IsPart compiler.spelling c [] part →
          NoHead (compiler.target c).elementName part) →
        Stage.opening.count (compiler.target c) (compiler.directives.void c attributes) = 0 ∧
          Stage.closing.count (compiler.target c) (compiler.directives.finish c) = 0) := by
  have hname : IsTagName (compiler.target c).elementName :=
    Target.elementName_isTagName (accepted c (by simp [single]))
  have hrewrite (s : List Char) : compiler.rewriteText compiler.components s =
      rewriteStages (compiler.target c) Stage.all s := by
    rw [single, rewriteText_cons, hstages]
    rfl
  have hreports (s : List Char) : compiler.reports compiler.components s =
      [⟨c.tag, c.view, tallyStages (compiler.target c) Stage.all [] s⟩] := by
    rw [single, reports, hstages]
    rfl
  have hsame : String.ofList (compiler.rewriteText compiler.components
        (String.ofList (compiler.source.void c attributes)).toList) =
      String.ofList (compiler.rewriteText compiler.components
        (String.ofList (compiler.source.start c attributes ++ compiler.source.finish c)).toList) ↔
      rewriteStages (compiler.target c) Stage.all
          (voidText (compiler.target c).elementName attributes) =
        rewriteStages (compiler.target c) Stage.all
          (pairText (compiler.target c).elementName attributes) := by
    rw [String.toList_ofList, String.toList_ofList, hrewrite, hrewrite]
    exact String.ofList_inj
  refine ⟨_, _, _, result?_of_accepts accepted _, compile_of_accepts accepted _, ?_, ?_, ?_, ?_⟩
  · exact hsame.trans (rewriteStages_voidText_eq_iff hname ending)
  · intro reads
    have htally := (rewriteStages_pairText hname ending reads).2
    rw [hreports, String.toList_ofList]
    exact congrArg (fun tally => [ComponentReport.mk c.tag c.view tally]) htally
  · intro hother hending
    refine ⟨hending, ?_⟩
    by_cases hslot : Markup.slot.count (pairText (compiler.target c).elementName attributes) = 0
    · exact hslot
    · exact absurd (Markup.strip_eq_slot_of_count hname.toIsElementName hslot) hother
  · exact count_directives_eq_zero hname.toIsElementName attributes

/-- A component whose tag ends in a hyphen. -/
def hyphenated : Component := ⟨"v", "x-", none⟩

def forHyphen : Compiler :=
  ofList [hyphenated] none none

theorem forHyphen_accepts : forHyphen.Accepts forHyphen.components := by
  intro c hc
  rw [List.mem_singleton.1 hc]
  decide +kernel

theorem forHyphen_parts {part : List Char} (filled : Directive.IsPart forHyphen.spelling hyphenated [] part) :
    '<' ∉ part :=
  filled.not_mem (by decide) (fun _ given => absurd given (by simp [hyphenated])) (by decide) (by decide)
    fun _ _ given => absurd given List.not_mem_nil

/-- An attribute without value. -/
def opened : TagAttribute where
  name := ":open".toList
  value := none
  named := by decide
  nameChars := List.all_eq_true.1 (by decide)
  plain := TagAttribute.plain_of_none

/-- Behind an attribute the opening tag of such a component is read. -/
theorem compile_empty_pair_of_hyphen :
    (forHyphen.components = [hyphenated] ∧ forHyphen.stages = Stage.all ∧
      forHyphen.Accepts forHyphen.components ∧ EndsOpenly [opened]) ∧
    ∃ text report, forHyphen.result? "<x- :open />" = some text ∧
      forHyphen.compile "<x- :open></x->" = .ok (text, report) ∧
      report.components = [⟨"x-", "v",
        [("slot", 0), ("self-closing", 0), ("opening", 1), ("closing", 1)]⟩] := by
  have ending : EndsOpenly [opened] := TagAttribute.endsOpenly_of_not_mem (by decide)
  have single : forHyphen.components = [hyphenated] := rfl
  obtain ⟨element, pair, report, helement, hpair, hsame, hreport, hreads, hparts⟩ :=
    compile_empty_pair single rfl forHyphen_accepts ending
  have isName : IsElementName (forHyphen.target hyphenated).elementName :=
    Target.elementName_isElementName (forHyphen_accepts hyphenated (by simp [forHyphen, ofList]))
  obtain ⟨hopening, hclosing⟩ := hparts fun part filled head hhead =>
    (hhead.headLike isName).not_of_not_mem (forHyphen_parts filled)
  have reads := hreads (by decide +kernel) fun hnil => by cases hnil
  have hnone : Stage.closing.count (forHyphen.target hyphenated)
      (forHyphen.directives.start hyphenated [opened]) = 0 := by decide +kernel
  have hclosed := hreport reads
  rw [hnone] at hclosed
  rw [hsame.2 ⟨reads, hopening, hclosing⟩] at helement
  exact ⟨⟨single, rfl, forHyphen_accepts, ending⟩, pair, report, helement, hpair, hclosed⟩

/-- A component whose view is an opening tag of it. -/
def forOwnTag : Compiler :=
  ofList [⟨"<card>", "card", none⟩] none none

/-- The context component, with a closing tag of it in the expression of the stack. -/
def forOwnStack : Compiler :=
  ofList [⟨"c", "card", none⟩] none (some { contextView := "c", contextStack := "</card x" })

/-- A hyphen in front of the end of the opening tag, the name of slots, an opening tag in the directive of
the element, and a closing tag in its last directive. -/
theorem compile_empty_pair_conditions :
    forHyphen.result? "<x- />" ≠ forHyphen.result? "<x-></x->" ∧
      (ofList [⟨"v", "slot", none⟩] none none).result? "<slot name=\"a\" />" ≠
        (ofList [⟨"v", "slot", none⟩] none none).result? "<slot name=\"a\"></slot>" ∧
      forOwnTag.result? "<card />" ≠ forOwnTag.result? "<card></card>" ∧
      forOwnStack.result? "<card />" ≠ forOwnStack.result? "<card></card>" := by
  refine ⟨?_, ?_, ?_, ?_⟩
  · decide +kernel
  · decide +kernel
  · decide +kernel
  · decide +kernel

end Compiler

end ComponentTags
