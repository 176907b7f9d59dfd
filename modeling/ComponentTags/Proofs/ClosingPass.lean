import ComponentTags.Proofs.QuoteReading
import ComponentTags.Proofs.Rewriting
import ComponentTags.Proofs.TagEnd

/-!
# The closing pass run again

The closing pass leaves no closing tag behind. A head of a closing tag that it kept has no `>` behind it anywhere,
or it would have been the head of a tag up to there. So no tag stands behind such a head either, nothing behind it
is rewritten, and no directive can bring the missing `>`. And no head comes together by the rewriting: a directive
starts with a character that no head holds, and holds no `<` of its own.
-/

namespace ComponentTags

namespace Markup

open Text (isBlank)

variable {name s rest : List Char} {f : Unit → List Char}

/-- A closing tag: a slash, white space and the complete name behind the `<`, and anything up to the first `>`. -/
def IsClosingTag (name tag : List Char) : Prop :=
  ∃ gap inner, tag = '<' :: '/' :: (gap ++ name ++ inner ++ ['>']) ∧ (∀ c ∈ gap, isBlank c = true) ∧
    '>' ∉ inner ∧ endsName (inner ++ ['>']) = true

/-- Behind the head of a closing tag the first `>` ends the tag, if there is one. -/
theorem closing?_of_head {gap after : List Char} (hname : IsTagName name) (hgap : ∀ c ∈ gap, isBlank c = true)
    (hends : endsName after = true) :
    closing? name ('<' :: '/' :: (gap ++ name ++ after)) = (afterTagEnd? after).map fun rest => ((), rest) := by
  have hfound : afterName isBlank name (gap ++ name ++ after) = some after := by
    rw [List.append_assoc]
    exact afterName_append_of_blank hgap (afterName_tagName hname fun c hc => isBlank_of_isTagChar hc)
  simp only [closing?, hfound, hends, if_true]

theorem closing?_eq_some_iff (hname : IsTagName name) :
    closing? name s = some ((), rest) ↔ ∃ tag, IsClosingTag name tag ∧ s = tag ++ rest := by
  have ends (inner rest : List Char) : endsName (inner ++ '>' :: rest) = endsName (inner ++ ['>']) := by
    cases inner <;> rfl
  constructor
  · intro h
    obtain ⟨r, after, rfl, hafter, hends, hrest⟩ := closing?_eq_some h
    obtain ⟨gap, rfl, hgap⟩ := eq_append_of_afterName hafter
    obtain ⟨inner, rfl, hinner⟩ := afterTagEnd?_eq_some_iff.1 hrest
    rw [ends] at hends
    exact ⟨_, ⟨gap, inner, rfl, List.all_eq_true.1 hgap, hinner, hends⟩, by simp⟩
  · rintro ⟨tag, ⟨gap, inner, rfl, hgap, hinner, hends⟩, rfl⟩
    have hafter : endsName (inner ++ '>' :: rest) = true := by rw [ends, hends]
    have hread := closing?_of_head hname hgap hafter
    rw [afterTagEnd?_eq_some_iff.2 ⟨inner, rfl, hinner⟩] at hread
    simpa using hread

/-- No closing tag is found in a text exactly if none stands in it. -/
theorem closing_count_eq_zero_iff (hname : IsTagName name) :
    (closing name).count s = 0 ↔ ∀ tag, IsClosingTag name tag → ¬ tag <:+: s := by
  rw [Pattern.count_eq_zero_iff]
  constructor
  · rintro absent tag htag ⟨before, behind, rfl⟩
    have hne : tag ++ behind ≠ [] := by
      obtain ⟨gap, inner, rfl, -⟩ := htag
      simp
    have hnone := absent (tag ++ behind) hne ⟨before, by simp⟩
    have hsome : (closing name).match? (tag ++ behind) = some ((), behind) :=
      (closing?_eq_some_iff hname).2 ⟨tag, htag, rfl⟩
    rw [List.append_nil, hsome] at hnone
    cases hnone
  · intro h t _ ⟨before, hsuffix⟩
    rw [List.append_nil]
    cases hmatch : (closing name).match? t with
    | none => rfl
    | some found =>
      obtain ⟨tag, htag, rfl⟩ := (closing?_eq_some_iff hname).1 hmatch
      exact absurd ⟨before, found.2, by rw [← hsuffix, List.append_assoc]⟩ (h tag htag)

/-- Without a `>`, no closing tag is found. -/
theorem closing_absent_of_endless (endless : '>' ∉ s) : (closing name).Absent s := by
  intro t _ hsuffix
  rw [List.append_nil]
  cases hmatch : (closing name).match? t with
  | none => rfl
  | some found =>
    have hend := closing_endsTags name t found.1 found.2 hmatch
    exact absurd (hsuffix.subset (hend.subset List.mem_cons_self)) endless

/-- A character that no closing tag starts at is kept again when the closing tags behind it are rewritten. -/
theorem closing?_cons_replace_eq_none {c : Char} (hname : IsTagName name) (closed : ∀ a, Sealed (f a))
    (h : closing? name (c :: s) = none) : closing? name (c :: (closing name).replace f s) = none := by
  have tags := closing_readsTags name
  cases hfound : closing? name (c :: (closing name).replace f s) with
  | none => rfl
  | some found =>
    obtain ⟨r, after, heq, hafter, hends, hrest⟩ := closing?_eq_some hfound
    obtain ⟨gap, rfl, hgap⟩ := eq_append_of_afterName hafter
    rw [List.all_eq_true] at hgap
    obtain ⟨rfl, hreplaced⟩ := List.cons.inj heq
    -- the head behind the `<` stood in the text before
    have isHead : IsTagHead name ('<' :: '/' :: (gap ++ name)) := by
      refine ⟨'/' :: gap, ⟨fun d hd => ?_, ?_⟩, rfl⟩
      · rcases List.mem_cons.1 hd with rfl | hd
        · exact .inr rfl
        · exact .inl (hgap d hd)
      · have hslash : '/' ∉ gap := fun hmem => absurd (hgap _ hmem) (by decide)
        simp [List.count_eq_zero.2 hslash]
    have head := isHead.headLike hname.toIsElementName
    have hchars : ∀ d ∈ '/' :: (gap ++ name), isHeadChar d = true :=
      fun d hd => head.chars d (List.mem_cons_of_mem _ hd)
    have hending : ('/' :: (gap ++ name)).getLast? ≠ some ' ' := by
      have hlast := head.ending
      rwa [List.getLast?_cons_cons] at hlast
    obtain ⟨behind, rfl, hbehind⟩ :=
      Pattern.prefix_append_of_ends_replace tags closed hchars hending hreplaced hends
    -- it had no end, so nothing behind it is rewritten
    rw [List.cons_append, closing?_of_head hname hgap hbehind, Option.map_eq_none_iff] at h
    have endless : '>' ∉ behind := by
      intro hmem
      obtain ⟨front, back, rfl, hfront⟩ := List.eq_append_cons_of_mem hmem
      rw [afterTagEnd?_eq_some_iff.2 ⟨front, rfl, hfront⟩] at h
      cases h
    have tagless : '<' ∉ '/' :: (gap ++ name) := by
      have hgap' : '<' ∉ gap := fun hmem => absurd (hgap _ hmem) (by decide)
      simp [hgap', hname.not_mem (c := '<') (by decide) (by decide)]
    rw [Pattern.replace_append_of_not_mem tags tagless,
      Pattern.replace_of_absent (closing_absent_of_endless endless)] at hreplaced
    have hsame : behind = after := List.append_cancel_left hreplaced
    rw [← hsame, h] at hrest
    cases hrest

/-- A text in which closing tags were replaced holds none. -/
theorem count_replace_closing (hname : IsTagName name) (closed : ∀ a, Sealed (f a)) (tagless : ∀ a, '<' ∉ f a)
    (s : List Char) : (closing name).count ((closing name).replace f s) = 0 := by
  have tags := closing_readsTags name
  induction s using Pattern.reading_induction (closing name) with
  | nil => simp
  | found s a rest hmatch ih =>
    rw [Pattern.replace_of_match hmatch]
    exact (Pattern.count_append (Skips.of_not_mem tags.opens (tagless a))).trans ih
  | skip c s hnone ih =>
    rw [Pattern.replace_cons_of_none hnone]
    exact (Pattern.count_cons_of_none (closing?_cons_replace_eq_none hname closed hnone)).trans ih

end Markup

namespace Directive

theorem tagless_finish {spelling : Spelling} (stack : '<' ∉ spelling.contextStack.plain.toList) (c : Component) :
    '<' ∉ (finish spelling c).toList := by
  unfold finish
  split
  · simp [stack]
  · decide

end Directive

namespace Stage

open Markup

/-- The closing pass leaves no closing tag of the component behind, however malformed the text is. Run on what it
wrote, it changes nothing and counts nothing. -/
theorem run_closing_twice {t : Target} (accepted : t.nameFault? = none)
    (stack : '<' ∉ t.spelling.contextStack.plain.toList) (s : List Char) :
    ∃ out count, closing.run t s = .ok (out, count) ∧ closing.run t out = .ok (out, 0) ∧
      ∀ tag, IsClosingTag t.elementName tag → ¬ tag <:+: out := by
  have hname := Target.elementName_isTagName accepted
  have hcount : closing.count t (closing.rewrite t s) = 0 :=
    count_replace_closing (f := fun _ => t.finishText) hname (fun _ => Directive.sealed_finish)
      (fun _ => Directive.tagless_finish stack t.component) s
  refine ⟨_, _, run_of_runs (.inr accepted) s, ?_, (closing_count_eq_zero_iff hname).1 hcount⟩
  rw [run_of_runs (.inr accepted), rewrite_of_count_eq_zero hcount, hcount]

/-- A closing tag takes another one that begins in it, and one without its end is kept. -/
theorem run_closing_twice_of_malformed :
    let s := "</ x-card </x-card>></x-card/></x-cards></x-card".toList
    let out := (xCard.finishText ++ ['>'] ++ xCard.finishText ++ "</x-cards></x-card".toList)
    (xCard.nameFault? = none ∧ '<' ∉ xCard.spelling.contextStack.plain.toList) ∧
      closing.run xCard s = .ok (out, 2) ∧ closing.run xCard out = .ok (out, 0) := by
  intro s out
  have accepted : xCard.nameFault? = none := by decide +kernel
  have stack : '<' ∉ xCard.spelling.contextStack.plain.toList := by decide +kernel
  obtain ⟨out', count, hrun, again, -⟩ := run_closing_twice accepted stack s
  have runs : closing.run xCard s = .ok (closing.rewrite xCard s, closing.count xCard s) :=
    run_of_runs (.inr accepted) s
  have rewritten : closing.rewrite xCard s = out := by decide +kernel
  have counted : closing.count xCard s = 2 := by decide +kernel
  rw [rewritten, counted] at runs
  rw [runs, Except.ok.injEq, Prod.mk.injEq] at hrun
  obtain ⟨rfl, rfl⟩ := hrun
  exact ⟨⟨accepted, stack⟩, runs, again⟩

end Stage

end ComponentTags
