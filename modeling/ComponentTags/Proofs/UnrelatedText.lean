import ComponentTags.Proofs.RewriteCount

/-!
# Unrelated text

Behind every `<` stands the name of a tag, which may be empty: white space, at most one slash, white space
again, and the longest run of characters that continue a name. Whatever a pattern accepts has the pattern's
name there, in full. So a `<` in front of any other name is copied by every stage, and a template in which
no tag has a sought name stays as it is, unless a component is refused.
-/

namespace ComponentTags

open Text (isBlank)

/-- White space with at most one slash in it has white space on either side of the slash. -/
theorem IsGap.blank_or_split {gap : List Char} (h : IsGap gap) :
    (∀ c ∈ gap, isBlank c = true) ∨
      ∃ front back, gap = front ++ '/' :: back ∧ (∀ c ∈ front, isBlank c = true) ∧
        ∀ c ∈ back, isBlank c = true := by
  obtain ⟨hchars, hcount⟩ := h
  by_cases hslash : '/' ∈ gap
  · obtain ⟨front, back, rfl⟩ := List.append_of_mem hslash
    rw [List.count_append, List.count_cons_self] at hcount
    have hfront : '/' ∉ front := List.count_eq_zero.1 (by omega)
    have hback : '/' ∉ back := List.count_eq_zero.1 (by omega)
    refine .inr ⟨front, back, rfl, ?_, ?_⟩
    · intro c hc
      exact (hchars c (by simp [hc])).resolve_right fun heq => hfront (heq ▸ hc)
    · intro c hc
      exact (hchars c (by simp [hc])).resolve_right fun heq => hback (heq ▸ hc)
  · exact .inl fun c hc => (hchars c hc).resolve_right fun heq => hslash (heq ▸ hc)

namespace Markup

variable {name gap rest s : List Char}

/-- A text without the slash that it may start with. -/
def afterSlash : List Char → List Char
  | '/' :: s => s
  | s => s

/-- The name of the tag behind a `<`. -/
def tagName (s : List Char) : List Char :=
  ((afterSlash (s.dropWhile isBlank)).dropWhile isBlank).takeWhile continuesName

theorem afterSlash_cons_of_ne {c : Char} (hc : c ≠ '/') (s : List Char) :
    afterSlash (c :: s) = c :: s := by
  unfold afterSlash
  split
  · rename_i heq
    exact absurd (List.cons.inj heq).1 hc
  · rfl

/-- A complete name is the longest run of its characters. -/
theorem takeWhile_name (hname : IsPlainName name) (hends : endsName rest = true) :
    (name ++ rest).takeWhile continuesName = name := by
  rw [List.takeWhile_append_of_pos fun c hc => continuesName_of_isTagChar (hname.chars c hc)]
  cases rest with
  | nil => simp
  | cons c rest =>
    rw [endsName, Bool.not_eq_true'] at hends
    rw [List.takeWhile_cons_of_neg (by simp [hends]), List.append_nil]

/-- The name that a tag head ends with is the name of the tag. -/
theorem tagName_append (hname : IsPlainName name) (hgap : IsGap gap) (hends : endsName rest = true) :
    tagName (gap ++ name ++ rest) = name := by
  have taken := takeWhile_name hname hends
  obtain ⟨c, r, hstart, hblank, hslash⟩ : ∃ c r, name ++ rest = c :: r ∧ isBlank c = false ∧ c ≠ '/' := by
    cases name with
    | nil => exact absurd rfl hname.ne_nil
    | cons c name =>
      have hc := hname.chars c (by simp)
      refine ⟨c, name ++ rest, rfl, isBlank_of_isTagChar hc, ?_⟩
      rintro rfl
      exact absurd hc (by decide)
  have skipped {front u : List Char} (h : ∀ d ∈ front, isBlank d = true) :
      (front ++ u).dropWhile isBlank = u.dropWhile isBlank := List.dropWhile_append_of_pos h
  have stops : (c :: r).dropWhile isBlank = c :: r := List.dropWhile_cons_of_neg (by simp [hblank])
  rw [tagName, List.append_assoc, hstart]
  rw [hstart] at taken
  rcases hgap.blank_or_split with hall | ⟨front, back, rfl, hfront, hback⟩
  · rw [skipped hall, stops, afterSlash_cons_of_ne hslash, stops, taken]
  · rw [List.append_assoc, List.cons_append, skipped hfront, List.dropWhile_cons_of_neg (by decide),
      afterSlash, skipped hback, stops, taken]

/-- Where the head of a tag of a name stands, the name is that of the tag. -/
theorem StartsHead.tagName_eq (hname : IsPlainName name) (h : StartsHead name ('<' :: s)) :
    tagName s = name := by
  obtain ⟨head, after, ⟨gap, hgap, rfl⟩, hs, hends⟩ := h
  rw [List.cons_append] at hs
  rw [(List.cons.inj hs).2]
  exact tagName_append hname hgap hends

end Markup

/-- A character at which no head of a pattern's name starts is copied. -/
theorem Pattern.copies_cons {α : Type} {p : Pattern α} {f : α → List Char} {name s : List Char} {c : Char}
    (heads : ∀ t a rest, p.match? t = some (a, rest) → Markup.StartsHead name t)
    (h : ¬ Markup.StartsHead name (c :: s)) :
    p.replace f (c :: s) = c :: p.replace f s ∧ p.count (c :: s) = p.count s := by
  have hnone := match?_eq_none_of_heads heads h
  exact ⟨replace_cons_of_none hnone, count_cons_of_none hnone⟩

/-- Every stage copies a character at which neither a slot nor a tag of its component starts. -/
theorem Stage.copies_cons (stage : Stage) {t : Target} {s : List Char} {c : Char}
    (noSlot : ¬ Markup.StartsHead "slot".toList (c :: s))
    (noTag : ¬ Markup.StartsHead t.elementName (c :: s)) :
    stage.rewrite t (c :: s) = c :: stage.rewrite t s ∧ stage.count t (c :: s) = stage.count t s := by
  cases stage with
  | slot => exact Pattern.copies_cons (fun _ _ _ hmatch => Markup.startsHead_of_slot? hmatch) noSlot
  | selfClosing =>
    exact Pattern.copies_cons (fun _ _ _ hmatch => Markup.startsHead_of_selfClosing? hmatch) noTag
  | opening => exact Pattern.copies_cons (fun _ _ _ hmatch => Markup.startsHead_of_opening? hmatch) noTag
  | closing => exact Pattern.copies_cons (fun _ _ _ hmatch => Markup.startsHead_of_closing? hmatch) noTag

theorem withoutFinalNewline_of_not_mem {s : List Char} (h : '\n' ∉ s) : withoutFinalNewline s = s := by
  unfold withoutFinalNewline
  rw [if_neg fun hlast => h (List.mem_of_getLast? hlast)]

/-- The tag is a text that starts with a letter or an underscore. -/
def Component.StartsAsTag (c : Component) : Prop :=
  ∃ tag x r, c.tag = .text tag ∧ tag.toList = x :: r ∧ isTagStart x = true

namespace Tally

/-- Every count is zero. -/
def Idle (t : Tally) : Prop := ∀ entry ∈ t, entry.2 = 0

theorem Idle.getD_eq_zero {t : Tally} (h : t.Idle) (name : String) : (Assoc.get? t name).getD 0 = 0 := by
  induction t with
  | nil => rfl
  | cons entry rest ih =>
    rw [Assoc.get?]
    split
    · exact h entry (by simp)
    · exact ih fun other hmem => h other (by simp [hmem])

/-- A record of zero keeps all counts at zero. -/
theorem Idle.record {t : Tally} (h : t.Idle) (name : String) : Idle (t.record name 0) := by
  rintro ⟨k, n⟩ hmem
  rcases Assoc.eq_or_mem_of_mem_insert hmem with heq | hmem
  · cases heq
    exact (Int.add_zero _).trans (h.getD_eq_zero name)
  · exact h _ hmem

end Tally

namespace Compiler

open Markup (tagName)

/-- All tags and the prefix consist of tag characters. -/
structure PlainlyNamed (compiler : Compiler) : Prop where
  tags : ∀ c ∈ compiler.components, ∃ tag, c.tag = .text tag ∧ ∀ x ∈ tag.toList, isTagChar x = true
  start : ∃ start, compiler.tagPrefix = .text start ∧ ∀ x ∈ start.toList, isTagChar x = true

/-- No tag in the text has a name that the stages of a compilation look for. -/
def Unrelated (compiler : Compiler) (s : List Char) : Prop :=
  ∀ rest, '<' :: rest <:+ s → ¬ compiler.Seeks (tagName rest)

variable {compiler : Compiler} {components : List Component} {c : Component} {name s : List Char}

theorem unrelated_nil : compiler.Unrelated [] := by
  intro rest h
  cases List.suffix_nil.1 h

theorem unrelated_cons_iff {x : Char} :
    compiler.Unrelated (x :: s) ↔ (x = '<' → ¬ compiler.Seeks (tagName s)) ∧ compiler.Unrelated s := by
  constructor
  · intro h
    refine ⟨?_, fun rest hrest => h rest (hrest.trans (List.suffix_cons x s))⟩
    rintro rfl
    exact h s List.suffix_rfl
  · rintro ⟨hhead, htail⟩ rest hrest
    rcases List.suffix_cons_iff.1 hrest with heq | hrest
    · obtain ⟨rfl, rfl⟩ := List.cons.inj heq
      exact hhead rfl
    · exact htail rest hrest

instance decidableSeeks (compiler : Compiler) (name : List Char) : Decidable (compiler.Seeks name) :=
  inferInstanceAs (Decidable (name = "slot".toList ∨
    ∃ c ∈ compiler.components, name = (compiler.target c).elementName))

instance decidableUnrelated (compiler : Compiler) : (s : List Char) → Decidable (compiler.Unrelated s)
  | [] => isTrue unrelated_nil
  | x :: s =>
    have := decidableUnrelated compiler s
    decidable_of_iff ((x = '<' → ¬ compiler.Seeks (tagName s)) ∧ compiler.Unrelated s)
      unrelated_cons_iff.symm

/-! ## Names -/

/-- A compilation refuses a component of plain name only for the start of its tag. -/
theorem PlainlyNamed.nameFault?_eq_none_iff (named : compiler.PlainlyNamed) (hc : c ∈ compiler.components) :
    (compiler.target c).nameFault? = none ↔ c.StartsAsTag := by
  obtain ⟨tag, htag, hchars⟩ := named.tags c hc
  obtain ⟨start, hstart, hfront⟩ := named.start
  have feedless {s : List Char} (h : ∀ x ∈ s, isTagChar x = true) : withoutFinalNewline s = s :=
    withoutFinalNewline_of_not_mem fun hmem => absurd (h _ hmem) (by decide)
  have hisPrefix : isTagPrefix start.toList = true := by
    rw [isTagPrefix, feedless hfront]
    exact List.all_eq_true.2 hfront
  have hisTag : isTag tag.toList = true ↔ c.StartsAsTag := by
    rw [isTag, feedless hchars]
    constructor
    · intro h
      split at h
      · cases h
      · rename_i x r hcut
        rw [Bool.and_eq_true] at h
        exact ⟨tag, x, r, htag, hcut, h.1⟩
    · rintro ⟨tag', x, r, htag', hcut, hx⟩
      rw [htag] at htag'
      cases htag'
      rw [hcut] at hchars ⊢
      simp only [hx, Bool.true_and]
      exact List.all_eq_true.2 fun y hy => hchars y (List.mem_cons_of_mem x hy)
  rw [← hisTag]
  by_cases h : isTag tag.toList = true
  · simp [Target.nameFault?, target, tagText?, htag, hstart, hisPrefix, h]
  · simp [Target.nameFault?, target, tagText?, htag, h]

/-- The sought names of a compilation that refuses no component. -/
theorem PlainlyNamed.isPlainName (named : compiler.PlainlyNamed)
    (accepted : compiler.Accepts compiler.components) (h : compiler.Seeks name) : IsPlainName name := by
  refine (h.isElementName accepted).toPlainName ?_
  rcases h with rfl | ⟨c, hc, rfl⟩
  · decide
  · obtain ⟨tag, htag, hchars⟩ := named.tags c hc
    obtain ⟨start, hstart, hfront⟩ := named.start
    intro hmem
    rw [Target.elementName_eq_append htag hstart] at hmem
    rcases List.mem_append.1 hmem with hmem | hmem
    · exact absurd (hfront _ hmem) (by decide)
    · exact absurd (hchars _ hmem) (by decide)

/-! ## Texts -/

/-- A `<` in front of a name that is not sought is copied by every stage. -/
theorem copies_tag (plain : ∀ name, compiler.Seeks name → IsPlainName name)
    (hc : c ∈ compiler.components) (h : ¬ compiler.Seeks (tagName s)) (stage : Stage) :
    stage.rewrite (compiler.target c) ('<' :: s) = '<' :: stage.rewrite (compiler.target c) s ∧
      stage.count (compiler.target c) ('<' :: s) = stage.count (compiler.target c) s := by
  have absent {name : List Char} (sought : compiler.Seeks name) :
      ¬ Markup.StartsHead name ('<' :: s) := by
    intro hhead
    rw [hhead.tagName_eq (plain name sought)] at h
    exact h sought
  exact stage.copies_cons (absent (.inl rfl)) (absent (.inr ⟨c, hc, rfl⟩))

/-- No head of a sought name stands in an unrelated text. -/
theorem Unrelated.noHead (unrelated : compiler.Unrelated s) (hname : IsPlainName name)
    (sought : compiler.Seeks name) : NoHead name s := by
  rintro head ⟨gap, hgap, rfl⟩ ⟨before, after, rfl, hends⟩
  have hsuffix : '<' :: (gap ++ name ++ after) <:+ before ++ '<' :: (gap ++ name) ++ after :=
    ⟨before, by simp⟩
  have hnot := unrelated _ hsuffix
  rw [Markup.tagName_append hname hgap hends] at hnot
  exact hnot sought

/-! ## Reports -/

/-- What stages record that find nothing. -/
def idleTally (stages : List Stage) : Tally :=
  stages.foldl (fun tally stage => tally.record stage.label 0) []

/-- What a compilation reports that finds nothing. -/
def idleReport (compiler : Compiler) : Report :=
  ⟨compiler.tagPrefix,
    compiler.components.map fun c => ⟨c.tag, c.view, idleTally compiler.stages⟩⟩

theorem idle_idleTally (stages : List Stage) : (idleTally stages).Idle := by
  have later (tally : Tally) (h : tally.Idle) :
      (stages.foldl (fun tally stage => tally.record stage.label 0) tally).Idle := by
    induction stages generalizing tally with
    | nil => exact h
    | cons stage rest ih => exact ih _ (h.record stage.label)
  exact later [] fun _ hmem => absurd hmem List.not_mem_nil

theorem tallyStages_of_countStages_eq_zero {t : Target} {stages : List Stage} {tally : Tally}
    (h : countStages t stages s = 0) :
    tallyStages t stages tally s =
      stages.foldl (fun tally stage => tally.record stage.label 0) tally := by
  induction stages generalizing tally with
  | nil => rfl
  | cons stage rest ih =>
    rw [countStages, Nat.add_eq_zero_iff] at h
    have hsame := Stage.rewrite_of_count_eq_zero h.1
    rw [hsame] at h
    rw [tallyStages, hsame, h.1, ih h.2]
    rfl

theorem reports_of_countText_eq_zero (h : compiler.countText components s = 0) :
    compiler.reports components s =
      components.map fun c => ⟨c.tag, c.view, idleTally compiler.stages⟩ := by
  induction components with
  | nil => rfl
  | cons c rest ih =>
    rw [countText, Nat.add_eq_zero_iff] at h
    have hsame := rewriteStages_of_countStages_eq_zero h.1
    rw [hsame] at h
    rw [reports, hsame, tallyStages_of_countStages_eq_zero h.1, ih h.2, List.map_cons]
    rfl

/-- A template in which no tag has a sought name stays as it is, and its report counts nothing, if all tags
and the prefix consist of tag characters and the tags start as tags do. In any text a `<` in front of a name
that is not sought, such as a longer one, is copied by every stage. Where a tag starts with another
character, all compilations fail that look for tags at all. -/
theorem compile_unrelated (named : compiler.PlainlyNamed) :
    ((∀ c ∈ compiler.components, c.StartsAsTag) →
      (∀ text : String, compiler.Unrelated text.toList →
        compiler.compile text = .ok (text, compiler.idleReport) ∧
          ∀ r ∈ compiler.idleReport.components, r.tally.Idle) ∧
      ∀ c ∈ compiler.components, ∀ stage : Stage, ∀ s, ¬ compiler.Seeks (tagName s) →
        stage.rewrite (compiler.target c) ('<' :: s) = '<' :: stage.rewrite (compiler.target c) s ∧
          stage.count (compiler.target c) ('<' :: s) = stage.count (compiler.target c) s) ∧
    ((∃ c ∈ compiler.components, ¬ c.StartsAsTag) → (∃ stage ∈ compiler.stages, stage ≠ .slot) →
      ∀ text, ∃ e, compiler.compile text = .error e) := by
  constructor
  · intro start
    have accepted : compiler.Accepts compiler.components :=
      fun c hc => (named.nameFault?_eq_none_iff hc).2 (start c hc)
    have plain (name : List Char) (sought : compiler.Seeks name) : IsPlainName name :=
      named.isPlainName accepted sought
    refine ⟨fun text unrelated => ⟨?_, ?_⟩, fun c hc stage s h => copies_tag plain hc h stage⟩
    · have nothing : compiler.countText compiler.components text.toList = 0 := by
        rw [countText_eq_zero_iff]
        intro c hc stage _
        exact count_eq_zero_of_noHead (fun name sought => unrelated.noHead (plain name sought) sought)
          hc stage
      rw [compile_of_accepts accepted, rewriteText_eq_self_iff_countText.2 nothing,
        reports_of_countText_eq_zero nothing, String.ofList_toList]
      rfl
    · intro r hr
      obtain ⟨c, -, rfl⟩ := List.mem_map.1 hr
      exact idle_idleTally compiler.stages
  · rintro ⟨c, hc, refused⟩ ⟨stage, hstage, hother⟩ text
    cases hresult : compiler.compile text with
    | error e => exact ⟨e, rfl⟩
    | ok found =>
      have runs := (succeeds_of_compile_eq_ok hresult c hc stage hstage).resolve_left hother
      exact absurd ((named.nameFault?_eq_none_iff hc).1 runs) refused

theorem forCard_plainlyNamed : forCard.PlainlyNamed where
  tags := by
    intro c hc
    rw [List.mem_singleton.1 hc]
    exact ⟨"card", rfl, List.all_eq_true.1 (by decide)⟩
  start := ⟨"x-", rfl, List.all_eq_true.1 (by decide)⟩

theorem forCard_startsAsTag : ∀ c ∈ forCard.components, c.StartsAsTag := by
  intro c hc
  rw [List.mem_singleton.1 hc]
  exact ⟨"card", 'c', "ard".toList, rfl, rfl, by decide⟩

/-- Longer and shorter names than `x-card` and `slot`, with white space and a slash in front of them. -/
theorem compile_unrelated_of_longer_names :
    forCard.PlainlyNamed ∧ (∀ c ∈ forCard.components, c.StartsAsTag) ∧
      forCard.Unrelated "<x-card-item /><my-x-card></ x-card.x>< / slots name='a'><x-car d></slot:>".toList ∧
      forCard.compile "<x-card-item /><my-x-card></ x-card.x>< / slots name='a'><x-car d></slot:>" =
        .ok ("<x-card-item /><my-x-card></ x-card.x>< / slots name='a'><x-car d></slot:>",
          forCard.idleReport) := by
  have unrelated : forCard.Unrelated
      "<x-card-item /><my-x-card></ x-card.x>< / slots name='a'><x-car d></slot:>".toList := by
    decide +kernel
  exact ⟨forCard_plainlyNamed, forCard_startsAsTag, unrelated,
    (((compile_unrelated forCard_plainlyNamed).1 forCard_startsAsTag).1 _ unrelated).1⟩

/-- A component whose tag starts with a digit. -/
def forDigit : Compiler :=
  ofList [⟨"v", "1", none⟩] none none

/-- A text without any tag is not compiled for such a component. -/
theorem compile_unrelated_of_digit :
    forDigit.PlainlyNamed ∧ forDigit.Unrelated "a".toList ∧ forDigit.result? "a" = none := by
  refine ⟨⟨?_, ⟨"", rfl, List.all_eq_true.1 (by decide)⟩⟩, by decide +kernel, by decide +kernel⟩
  intro c hc
  rw [List.mem_singleton.1 hc]
  exact ⟨"1", rfl, List.all_eq_true.1 (by decide)⟩

end Compiler

end ComponentTags
