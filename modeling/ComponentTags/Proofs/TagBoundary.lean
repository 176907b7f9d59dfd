import ComponentTags.Proofs.TagReading

/-!
# Tags of other names

A pattern that looks for one name accepts no tag with another complete name, whichever of the two is the
longer one, and no tag of another kind. The three patterns for elements and the pattern for slots differ in
where they allow white space and in how they check the end of the name.
-/

namespace ComponentTags.Markup

open Text (isBlank isInlineBlank)

variable {name other rest : List Char}

/-- Behind a name that is found in another complete one, a name goes on. -/
theorem endsName_eq_false_of_afterName {blank : Char → Bool} {r : List Char} (hname : IsPlainName name)
    (hother : IsPlainName other) (hne : name ≠ other)
    (hblank : ∀ c, isTagChar c = true → blank c = false) (hends : endsName rest = true)
    (h : afterName blank name (other ++ rest) = some r) : endsName r = false := by
  obtain ⟨c, s, rfl, hc⟩ := endsName_of_afterName hname hother hne hblank hends h
  rw [endsName, continuesName_of_isTagChar hc]
  rfl

theorem slot?_of_other (hother : IsPlainName other) (hne : "slot".toList ≠ other)
    (hends : endsName rest = true) : slot? ('<' :: (other ++ rest)) = none := by
  cases h : slot? ('<' :: (other ++ rest)) with
  | none => rfl
  | some found =>
    obtain ⟨r, after, header, body, heq, hafter, hcut, -⟩ := slot?_eq_some h
    rw [← (List.cons.inj heq).2] at hafter
    rw [endsName_eq_false_of_afterName slot_isPlainName hother hne
      (fun c hc => isBlank_of_isTagChar hc) hends hafter] at hcut
    cases hcut

theorem selfClosing?_of_other (hname : IsPlainName name) (hother : IsPlainName other)
    (hne : name ≠ other) (hends : endsName rest = true) :
    selfClosing? name ('<' :: (other ++ rest)) = none := by
  cases h : selfClosing? name ('<' :: (other ++ rest)) with
  | none => rfl
  | some found =>
    obtain ⟨r, after, heq, hafter, hcut, -⟩ := selfClosing?_eq_some h
    rw [← (List.cons.inj heq).2] at hafter
    rw [endsName_eq_false_of_afterName hname hother hne isTagChar_not_inlineBlank hends hafter] at hcut
    cases hcut

theorem opening?_of_other (hname : IsPlainName name) (hother : IsPlainName other)
    (hne : name ≠ other) (hends : endsName rest = true) :
    opening? name ('<' :: (other ++ rest)) = none := by
  cases h : opening? name ('<' :: (other ++ rest)) with
  | none => rfl
  | some found =>
    obtain ⟨r, after, heq, hafter, hrest⟩ := opening?_eq_some h
    rw [← (List.cons.inj heq).2] at hafter
    have hcut := endsName_of_openingRest? hrest
    rw [endsName_eq_false_of_afterName hname hother hne (fun c hc => isBlank_of_isTagChar hc) hends
      hafter] at hcut
    cases hcut

theorem closing?_of_other (hname : IsPlainName name) (hother : IsPlainName other)
    (hne : name ≠ other) (hends : endsName rest = true) :
    closing? name ('<' :: '/' :: (other ++ rest)) = none := by
  cases h : closing? name ('<' :: '/' :: (other ++ rest)) with
  | none => rfl
  | some found =>
    obtain ⟨r, after, heq, hafter, hcut, -⟩ := closing?_eq_some h
    rw [← (List.cons.inj (List.cons.inj heq).2).2] at hafter
    rw [endsName_eq_false_of_afterName hname hother hne (fun c hc => isBlank_of_isTagChar hc) hends
      hafter] at hcut
    cases hcut

/-! ## Tags of another kind -/

theorem slot?_of_slash (r : List Char) : slot? ('<' :: '/' :: r) = none := by
  have hnone : afterName isBlank "slot".toList ('/' :: r) = none :=
    afterName_cons_of_ne (by decide) (by decide) (by decide)
  simp only [slot?, hnone]

theorem selfClosing?_of_slash (hname : IsElementName name) (r : List Char) :
    selfClosing? name ('<' :: '/' :: r) = none := by
  have hnone : afterName isInlineBlank name ('/' :: r) = none :=
    afterName_cons_of_ne (by decide) hname.ne_nil (hname.not_mem (by decide) (by decide))
  simp [selfClosing?, hnone]

theorem opening?_of_slash (hname : IsElementName name) (r : List Char) :
    opening? name ('<' :: '/' :: r) = none := by
  have hnone : afterName isBlank name ('/' :: r) = none :=
    afterName_cons_of_ne (by decide) hname.ne_nil (hname.not_mem (by decide) (by decide))
  simp [opening?, hnone]

theorem closing?_of_name (hother : IsElementName other) (r : List Char) :
    closing? name ('<' :: (other ++ r)) = none := by
  cases h : closing? name ('<' :: (other ++ r)) with
  | none => rfl
  | some found =>
    obtain ⟨r', after, heq, -⟩ := closing?_eq_some h
    cases other with
    | nil => exact absurd rfl hother.ne_nil
    | cons c other =>
      rw [List.cons_append] at heq
      have hslash : c = '/' := (List.cons.inj (List.cons.inj heq).2).1
      exact absurd (by simp [hslash]) (hother.not_mem (c := '/') (by decide) (by decide))

/-- An opening tag or a self-closing element closes no slot. -/
theorem slotEnd?_of_name (hname : IsPlainName name) (r : List Char) :
    slotEnd? ('<' :: (name ++ r)) = none := by
  cases name with
  | nil => exact absurd rfl hname.ne_nil
  | cons c name =>
    have hc : isTagChar c = true := hname.chars c (by simp)
    have hslash : c ≠ '/' := by
      rintro rfl
      exact absurd hc (by decide)
    simp only [slotEnd?, List.cons_append]
    rw [List.dropWhile_cons_of_neg (by simp [isBlank_of_isTagChar hc])]
    split
    · rename_i heq
      exact absurd (List.cons.inj heq).1 hslash
    · rfl

/-- A closing tag of another name closes no slot. -/
theorem slotEnd?_of_other (hname : IsPlainName name) (hne : "slot".toList ≠ name)
    (hends : endsName rest = true) : slotEnd? ('<' :: '/' :: (name ++ rest)) = none := by
  have hslash : ('/' :: (name ++ rest)).dropWhile isBlank = '/' :: (name ++ rest) :=
    List.dropWhile_cons_of_neg (by decide)
  have hstart : (name ++ rest).dropWhile isBlank = name ++ rest := by
    cases name with
    | nil => exact absurd rfl hname.ne_nil
    | cons c name =>
      exact List.dropWhile_cons_of_neg (by simp [isBlank_of_isTagChar (hname.chars c (by simp))])
  have here (literal : List Char) (s : List Char) :
      afterName (fun _ => false) literal s = Text.afterLiteral literal s := by
    cases s <;> simp [afterName]
  simp only [slotEnd?, hslash, hstart]
  split
  · rename_i r hr
    rw [← here] at hr
    obtain ⟨c, t, rfl, hc⟩ := endsName_of_afterName slot_isPlainName hname hne (fun _ _ => rfl) hends hr
    have hend : c ≠ '>' := by
      rintro rfl
      exact absurd hc (by decide)
    rw [List.dropWhile_cons_of_neg (by simp [isBlank_of_isTagChar hc])]
    split
    · rename_i heq
      exact absurd (List.cons.inj heq).1 hend
    · rfl
  · rfl

/-! ## All tags of other names -/

/-- A reader accepts neither opening nor closing tags of other complete names. -/
structure RefusesOthers {β : Type} (m? : List Char → Option β) (name : List Char) : Prop where
  opening : ∀ {other rest : List Char}, IsPlainName other → name ≠ other → endsName rest = true →
    m? ('<' :: (other ++ rest)) = none
  closing : ∀ {other rest : List Char}, IsPlainName other → name ≠ other → endsName rest = true →
    m? ('<' :: '/' :: (other ++ rest)) = none

theorem slot_refusesOthers : RefusesOthers slot? "slot".toList where
  opening hother hne hends := slot?_of_other hother hne hends
  closing _ _ _ := slot?_of_slash _

theorem slotEnd_refusesOthers : RefusesOthers slotEnd? "slot".toList where
  opening hother _ _ := slotEnd?_of_name hother _
  closing hother hne hends := slotEnd?_of_other hother hne hends

theorem selfClosing_refusesOthers (hname : IsPlainName name) : RefusesOthers (selfClosing? name) name where
  opening hother hne hends := selfClosing?_of_other hname hother hne hends
  closing _ _ _ := selfClosing?_of_slash hname.toElementName _

theorem opening_refusesOthers (hname : IsPlainName name) : RefusesOthers (opening? name) name where
  opening hother hne hends := opening?_of_other hname hother hne hends
  closing _ _ _ := opening?_of_slash hname.toElementName _

theorem closing_refusesOthers (hname : IsPlainName name) : RefusesOthers (closing? name) name where
  opening hother _ _ := closing?_of_name hother.toElementName _
  closing hother hne hends := closing?_of_other hname hother hne hends

end ComponentTags.Markup
