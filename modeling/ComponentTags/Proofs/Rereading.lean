import ComponentTags.Proofs.Rewriting
import ComponentTags.Proofs.TagEnd

/-!
# Reading the directives of an element again

Where the directives of an element hold an opening tag of the component, the stages for tags do not leave
what the closing stage makes of the first directive, with the last one behind it. Without a data model the
text up to the last call comes with every directive once more, so the text gets longer. With one, the
replaced tag leaves the parenthesis of its directive in front of what follows, where closing tags leave none.
-/

namespace ComponentTags

namespace Stage

variable {t : Target} {s w : List Char}

/-- A stage changes nothing, or it overwrites the `>` of the last occurrence. -/
theorem rewrite_eq_or_endOverwritten (hname : t.elementName ≠ []) (stage : Stage) (s : List Char) :
    stage.rewrite t s = s ∨ EndOverwritten s (stage.rewrite t s) := by
  cases stage with
  | slot =>
    exact Pattern.replace_eq_or_endOverwritten Markup.slot_endsTags
      (fun found => Directive.coversEnd_slot found.name found.contents) s
  | selfClosing =>
    exact Pattern.replace_eq_or_endOverwritten (Markup.selfClosing_endsTags _)
      (fun _ => Directive.coversEnd_element) s
  | opening =>
    exact Pattern.replace_eq_or_endOverwritten (Markup.opening_endsTags hname)
      (fun _ => Directive.coversEnd_start) s
  | closing =>
    exact Pattern.replace_eq_or_endOverwritten (Markup.closing_endsTags _)
      (fun _ => Directive.coversEnd_finish) s

/-- What is overwritten once is not brought back. -/
theorem endOverwritten_rewrite (hname : t.elementName ≠ []) (stage : Stage) (h : EndOverwritten w s) :
    EndOverwritten w (stage.rewrite t s) := by
  rcases rewrite_eq_or_endOverwritten hname stage s with hsame | hover
  · rwa [hsame]
  · exact h.trans hover

/-- The end of a text is kept with something in front of it, or it is overwritten. -/
theorem exists_rewrite_append (hname : t.elementName ≠ []) (stage : Stage) (hs : s ≠ [])
    (h : ¬ EndOverwritten w (stage.rewrite t (s ++ w))) :
    ∃ front, front ≠ [] ∧ stage.rewrite t (s ++ w) = front ++ w := by
  rcases rewrite_eq_or_endOverwritten hname stage (s ++ w) with hsame | hover
  · exact ⟨s, hs, hsame⟩
  · exact hover.of_append.resolve_left h

/-- Closing tags are read on their own behind a `>`. -/
theorem closing_rewrite_append (hname : IsElementName t.elementName) (s w : List Char) :
    closing.rewrite t (s ++ '>' :: w) = closing.rewrite t (s ++ ['>']) ++ closing.rewrite t w := by
  have hsplit := (Markup.closing_replace_append (s := s) (f := fun _ => t.finishText) hname
    List.not_mem_nil w).1
  rw [List.append_assoc] at hsplit
  exact hsplit

theorem closing_rewrite_append_of_not_mem (hname : IsElementName t.elementName) (s : List Char)
    (tagless : '<' ∉ w) : closing.rewrite t (s ++ '>' :: w) = closing.rewrite t (s ++ ['>']) ++ w := by
  have hkept := closing.rewrite_append_of_not_mem (t := t) tagless []
  have hnil : closing.rewrite t [] = [] := Pattern.replace_nil _ _
  rw [hnil, List.append_nil] at hkept
  rw [closing_rewrite_append hname, hkept]

theorem closing_rewrite_call (hname : IsElementName t.elementName) (tagless : '<' ∉ w) :
    closing.rewrite t (s ++ '-' :: '>' :: w) = closing.rewrite t ((s ++ ['-']) ++ ['>']) ++ w := by
  rw [List.append_cons, closing_rewrite_append_of_not_mem hname _ tagless]

end Stage

namespace Target

open Stage (opening closing)

variable {t : Target} {front back : List Char}

/-- Where what stands behind the last call is kept, the first opening tag ends in front of that call. -/
theorem exists_opening (hname : IsElementName t.elementName) {w : List Char}
    (hkept : ¬ EndOverwritten w (opening.rewrite t (front ++ '-' :: '>' :: w)))
    (h : opening.count t (front ++ '-' :: '>' :: w) ≠ 0) :
    ∃ u v text later, front ++ ['-', '>'] = u ++ '<' :: v ∧ '>' ∈ v ∧
      Markup.closing? t.elementName ('<' :: v) = none ∧ later ≠ [] ∧
      opening.rewrite t (front ++ '-' :: '>' :: w) = u ++ (t.startText text ++ (later ++ w)) := by
  obtain ⟨u, s, text, rest, hsplit, hmatch, hreplace⟩ := Pattern.exists_first t.startText h
  have hfirst : opening.rewrite t (front ++ '-' :: '>' :: w) =
      u ++ (t.startText text ++ opening.rewrite t rest) := hreplace
  rw [hfirst] at hkept ⊢
  have hend : ¬ '>' :: rest <:+ w := by
    rintro ⟨v, rfl⟩
    obtain ⟨r, c, hlast, hc⟩ : CoversEnd (t.startText text) := Directive.coversEnd_start
    apply hkept
    rcases Stage.rewrite_eq_or_endOverwritten hname.ne_nil opening rest with hsame | hover
    · exact ⟨v, u ++ r, c, rest, rfl, by simp [hsame, hlast], hc⟩
    · have hwhole := hover.append_left (v ++ ['>']) (u ++ t.startText text)
      simpa using hwhole
  obtain ⟨inner, between, rfl, rfl, hfront⟩ := Markup.exists_call_behind hname.ne_nil hsplit hmatch hend
  obtain ⟨later, hlater, hbehind⟩ :
      ∃ later, later ≠ [] ∧ opening.rewrite t (between ++ ['>'] ++ w) = later ++ w := by
    apply Stage.exists_rewrite_append hname.ne_nil opening (by simp)
    intro hover
    have hwhole := hover.append_left [] (u ++ t.startText text)
    rw [List.append_assoc, List.append_assoc] at hwhole
    exact hkept hwhole
  rw [List.append_assoc, List.singleton_append] at hbehind
  exact ⟨u, _, text, later, hfront, by simp, Markup.closing?_of_opening? hname hmatch, hlater,
    by rw [hbehind]⟩

/-- Each directive starts with the same text up to its last call. The first opening tag brings that text in
once more, with something behind it that was not there before. -/
theorem reread_ne_of_front (hname : IsElementName t.elementName)
    (hstart : ∀ text, ∃ back, t.startText text = '@' :: front ++ '-' :: '>' :: back)
    (tagless : '<' ∉ back)
    (h : opening.count t ('@' :: front ++ '-' :: '>' :: (back ++ t.finishText)) ≠ 0) :
    closing.rewrite t (opening.rewrite t ('@' :: front ++ '-' :: '>' :: (back ++ t.finishText))) ≠
      closing.rewrite t ('@' :: front ++ '-' :: '>' :: back) ++ t.finishText := by
  intro heq
  rw [Stage.closing_rewrite_call hname tagless, List.append_assoc] at heq
  generalize back ++ t.finishText = w at h heq
  -- the second text ends with what stands behind the call, so nothing overwrites that
  have hresult : ¬ EndOverwritten w
      (closing.rewrite t (opening.rewrite t ('@' :: front ++ '-' :: '>' :: w))) :=
    fun hover => hover.not_suffix ⟨_, heq.symm⟩
  obtain ⟨u, v, text, later, hfront, hend, hopens, hlater, hopening⟩ := exists_opening hname
    (fun hover => hresult (Stage.endOverwritten_rewrite hname.ne_nil closing hover)) h
  obtain ⟨back', hback'⟩ := hstart text
  have hshape : u ++ ('@' :: front ++ '-' :: '>' :: back' ++ (later ++ w)) =
      (u ++ ('@' :: front ++ ['-'])) ++ '>' :: (back' ++ later ++ w) := by simp
  rw [hopening, hback', hshape, Stage.closing_rewrite_append hname] at heq hresult
  obtain ⟨more, hmore, hbehind⟩ : ∃ more, more ≠ [] ∧
      closing.rewrite t (back' ++ later ++ w) = more ++ w := by
    apply Stage.exists_rewrite_append hname.ne_nil closing (by simp [hlater])
    intro hover
    have hwhole := hover.append_left [] (closing.rewrite t (u ++ ('@' :: front ++ ['-']) ++ ['>']))
    exact hresult hwhole
  rw [hbehind, ← List.append_assoc, List.append_cancel_right_eq] at heq
  apply Markup.closing_replace_append_ne hname (fun _ => t.finishText) hfront hopens hend hmore
  have hsame : closing.rewrite t (u ++ '@' :: (front ++ ['-', '>'])) ++ more =
      closing.rewrite t ('@' :: (front ++ ['-', '>'])) := by simpa using heq
  exact hsame

/-- Each directive ends with the same text behind its last call. The last opening tag leaves the end of that
text in front of what follows the tag, where the closing stage leaves the end of a tag or of the last
directive. -/
theorem reread_ne_of_back (hname : IsElementName t.elementName)
    (hstart : ∀ text, ∃ front, t.startText text = front ++ '-' :: '>' :: back)
    (tagless : '<' ∉ back) (endless : '>' ∉ back) (hback : back.getLast? = some ')')
    (hfinish : t.finishText = " @endcomponent".toList)
    (h : opening.count t (front ++ '-' :: '>' :: (back ++ t.finishText)) ≠ 0) :
    closing.rewrite t (opening.rewrite t (front ++ '-' :: '>' :: (back ++ t.finishText))) ≠
      closing.rewrite t (front ++ '-' :: '>' :: back) ++ t.finishText := by
  intro heq
  rw [Stage.closing_rewrite_call hname tagless, List.append_assoc] at heq
  have htagless : '<' ∉ back ++ t.finishText := by
    rw [hfinish]
    simp [tagless]
  have hendless : '>' ∉ back ++ t.finishText := by
    rw [hfinish]
    simp [endless]
  generalize back ++ t.finishText = w at h heq htagless hendless
  obtain ⟨s, text, rest, v, ⟨u, hsplit⟩, hmatch, hreplace⟩ :=
    Pattern.exists_last (Markup.opening_endsTags hname.ne_nil) t.startText h
  have hend : ¬ '>' :: rest <:+ w := fun hsuffix => hendless (hsuffix.subset List.mem_cons_self)
  obtain ⟨inner, between, rfl, rfl, hfront⟩ :=
    Markup.exists_call_behind hname.ne_nil hsplit.symm hmatch hend
  have hlast : opening.rewrite t (front ++ '-' :: '>' :: w) =
      v ++ (t.startText text ++ (between ++ '>' :: w)) := hreplace
  obtain ⟨front', hfront'⟩ := hstart text
  have helement : closing.rewrite t (opening.rewrite t (front ++ '-' :: '>' :: w)) =
      closing.rewrite t ((v ++ front' ++ ['-']) ++ ['>']) ++
        (back ++ (closing.rewrite t (between ++ ['>']) ++ w)) := by
    have hshape : v ++ (front' ++ '-' :: '>' :: back ++ (between ++ '>' :: w)) =
        (v ++ front' ++ ['-']) ++ '>' :: (back ++ (between ++ '>' :: w)) := by simp
    rw [hlast, hfront', hshape, Stage.closing_rewrite_append hname,
      closing.rewrite_append_of_not_mem tagless, Stage.closing_rewrite_append_of_not_mem hname _ htagless]
  have hpair : closing.rewrite t ((front ++ ['-']) ++ ['>']) =
      closing.rewrite t ((u ++ '<' :: inner) ++ ['>']) ++ closing.rewrite t (between ++ ['>']) := by
    have hshape : (front ++ ['-']) ++ ['>'] = (u ++ '<' :: inner) ++ '>' :: (between ++ ['>']) := by
      simpa using hfront
    rw [hshape, Stage.closing_rewrite_append hname]
  rw [helement, hpair, ← List.append_assoc, ← List.append_assoc, List.append_cancel_right_eq,
    List.append_cancel_right_eq] at heq
  have hparenthesis : (closing.rewrite t ((v ++ front' ++ ['-']) ++ ['>']) ++ back).getLast? = some ')' := by
    rw [List.getLast?_append, hback, Option.some_or]
  rw [heq] at hparenthesis
  rcases Pattern.getLast?_replace (Markup.closing_endsTags t.elementName)
      (fun _ => Directive.coversEnd_finish) (u ++ '<' :: inner) with htag | ⟨_, hdirective⟩
  · cases hparenthesis.symm.trans htag
  · have hother : some ')' = t.finishText.getLast? := hparenthesis.symm.trans hdirective
    rw [hfinish] at hother
    exact absurd hother (by decide)

section

variable (hname : IsElementName t.elementName) {text : List Char}
  (entries : ∀ key value, (key, value) ∈ Attribute.parse text → '<' ∉ key.toList ∧ '<' ∉ value.toList)

include hname entries

/-- Behind the directive of an opening tag, closing tags are replaced on their own. -/
theorem closing_startText_append (w : List Char) :
    closing.rewrite t (t.startText text ++ w) = closing.rewrite t (t.startText text) ++ closing.rewrite t w ∧
      closing.count t (t.startText text ++ w) = closing.count t (t.startText text) + closing.count t w := by
  obtain ⟨front, back, hstart, hback⟩ : ∃ front back, t.startText text = front ++ '>' :: back ∧ '<' ∉ back := by
    rcases Directive.start_calls t.spelling t.component with ⟨front, hcalls⟩ | ⟨-, hcalls⟩
    · obtain ⟨back, hstart, hback⟩ := hcalls (Attribute.parse text)
      exact ⟨'@' :: front ++ ['-'], back, by rw [startText, hstart, List.append_cons], hback entries⟩
    · obtain ⟨front, hstart⟩ := hcalls (Attribute.parse text)
      exact ⟨front ++ ['-'], _, by rw [startText, hstart, List.append_cons], by decide⟩
  have hsplit := Markup.closing_replace_append (s := front) (f := fun _ => t.finishText) hname hback w
  rw [← hstart] at hsplit
  exact hsplit

/-- If the directives of an element hold an opening tag, the stages for tags do not leave what the closing
stage makes of the first one, with the last one behind it. -/
theorem reread_ne (h : opening.count t (t.elementText text) ≠ 0) :
    closing.rewrite t (opening.rewrite t (t.elementText text)) ≠
      closing.rewrite t (t.startText text) ++ t.finishText := by
  rw [t.elementText_eq_append] at h ⊢
  rcases Directive.start_calls t.spelling t.component with ⟨front, hcalls⟩ | ⟨hfinish, hcalls⟩
  · obtain ⟨back, hstart, hback⟩ := hcalls (Attribute.parse text)
    have hshape : t.startText text = '@' :: front ++ '-' :: '>' :: back := hstart
    rw [hshape, List.append_assoc, List.cons_append, List.cons_append] at h ⊢
    have hfirst := reread_ne_of_front hname (fun text => (hcalls (Attribute.parse text)).imp fun _ h => h.1)
      (hback entries) h
    exact hfirst
  · obtain ⟨front, hstart⟩ := hcalls (Attribute.parse text)
    have hshape : t.startText text = front ++ '-' :: '>' :: "toArray()))".toList := hstart
    rw [hshape, List.append_assoc, List.cons_append, List.cons_append] at h ⊢
    exact reread_ne_of_back hname (fun text => hcalls (Attribute.parse text)) (by decide) (by decide)
      (by decide) (congrArg String.toList hfinish) h

/-- The stages for tags leave it exactly if they find no opening tag in the directives and no closing tag in
the last one. -/
theorem reread_eq_iff :
    closing.rewrite t (opening.rewrite t (t.elementText text)) =
        closing.rewrite t (t.startText text) ++ t.finishText ↔
      opening.count t (t.elementText text) = 0 ∧ closing.count t t.finishText = 0 := by
  by_cases h : opening.count t (t.elementText text) = 0
  · rw [Stage.rewrite_of_count_eq_zero h, t.elementText_eq_append, (closing_startText_append hname entries _).1,
      List.append_cancel_left_eq, Stage.rewrite_eq_self_iff, ← t.elementText_eq_append]
    exact ⟨fun hfinish => ⟨h, hfinish⟩, And.right⟩
  · exact ⟨fun heq => absurd heq (reread_ne hname entries h), fun hnone => absurd hnone.1 h⟩

end

end Target

end ComponentTags
