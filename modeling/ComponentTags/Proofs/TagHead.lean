import ComponentTags.Proofs.ElementName
import ComponentTags.Proofs.Occurrence

/-!
# Heads of tags

A tag head is a `<`, white space with at most one slash in it, and a name. This is what every tag and
every slot starts with. A head stands in a text when no longer name continues it there. Directives are
sealed: a head that stands in a text in which directives replaced tags stands in one of the directives or
in the text before, but never in characters that came together only by the replacement.
-/

namespace ComponentTags

open Text (isBlank)

/-- White space and slashes between the `<` of a tag and its name. -/
def IsGap (gap : List Char) : Prop :=
  (∀ c ∈ gap, isBlank c = true ∨ c = '/') ∧ gap.count '/' ≤ 1

/-- The head of an opening, self-closing or closing tag of a name. -/
def IsTagHead (name head : List Char) : Prop :=
  ∃ gap, IsGap gap ∧ head = '<' :: (gap ++ name)

/-- The part stands somewhere in the text, and no longer name continues it there. -/
def StandsIn (part s : List Char) : Prop :=
  ∃ before after, s = before ++ part ++ after ∧ Markup.endsName after = true

/-- No head of a tag of the name stands in the text. -/
def NoHead (name s : List Char) : Prop := ∀ head, IsTagHead name head → ¬ StandsIn head s

namespace StandsIn

variable {part s t u : List Char} {c : Char}

theorem refl (s : List Char) : StandsIn s s := ⟨[], [], by simp, rfl⟩

theorem trans (first : StandsIn s t) (second : StandsIn t u) : StandsIn s u := by
  obtain ⟨before, after, rfl, hafter⟩ := first
  obtain ⟨before', after', rfl, hafter'⟩ := second
  refine ⟨before' ++ before, after ++ after', by simp, ?_⟩
  cases after with
  | nil => exact hafter'
  | cons c after => exact hafter

theorem subset (h : StandsIn part s) : part ⊆ s := by
  obtain ⟨before, after, rfl, -⟩ := h
  intro c hc
  simp [hc]

theorem append_of_ends (h : Markup.endsName t = true) : StandsIn s (s ++ t) := ⟨[], t, by simp, h⟩

theorem of_suffix (s t : List Char) : StandsIn t (s ++ t) := ⟨s, [], by simp, rfl⟩

theorem of_isSuffix (h : s <:+ t) : StandsIn s t := by
  obtain ⟨before, rfl⟩ := h
  exact of_suffix before s

/-- A part without `c` stands on one side of a `c`. -/
theorem or_of_append_cons (hc : c ∉ part) (h : StandsIn part (s ++ c :: t)) :
    StandsIn part s ∨ StandsIn part t := by
  obtain ⟨before, after, heq, hafter⟩ := h
  rw [List.append_assoc] at heq
  rcases List.append_eq_append_iff.1 heq with ⟨more, hbefore, hrest⟩ | ⟨more, hs, hrest⟩
  · cases more with
    | nil =>
      cases part with
      | nil => exact .inl ⟨s, [], by simp, rfl⟩
      | cons d part =>
        have hcd : c = d := (List.cons.inj hrest).1
        exact absurd (List.mem_cons.2 (.inl hcd)) hc
    | cons d more =>
      rw [List.cons_append] at hrest
      have ht := (List.cons.inj hrest).2
      exact .inr ⟨more, after, by rw [ht, List.append_assoc], hafter⟩
  · rcases List.append_eq_append_iff.1 hrest with ⟨more', hmore, hct⟩ | ⟨more', hpart, hct⟩
    · refine .inl ⟨before, more', by rw [hs, hmore, List.append_assoc], ?_⟩
      cases more' with
      | nil => rfl
      | cons d more' =>
        rw [hct, List.cons_append] at hafter
        exact hafter
    · cases more' with
      | nil => exact .inl ⟨before, [], by rw [hs, hpart]; simp, rfl⟩
      | cons d more' =>
        have hcd : c = d := (List.cons.inj hct).1
        exact absurd (by simp [hpart, hcd]) hc

theorem of_left (hc : Markup.continuesName c = false) (h : StandsIn part s) :
    StandsIn part (s ++ c :: t) :=
  h.trans (append_of_ends (by simp [Markup.endsName, hc]))

end StandsIn

/-- The characters of tag heads. -/
def isHeadChar (c : Char) : Bool := c == '<' || isBlank c || c == '/' || isTagChar c

/-- A text that may be a tag head: it starts with `<`, has characters of heads only and does not end in
the space that directives start with. -/
structure HeadLike (head : List Char) : Prop where
  opens : ∃ r, head = '<' :: r
  chars : ∀ c ∈ head, isHeadChar c = true
  ending : head.getLast? ≠ some ' '

theorem IsTagHead.headLike {name head : List Char} (hname : IsElementName name)
    (h : IsTagHead name head) : HeadLike head := by
  obtain ⟨gap, ⟨hgap, -⟩, rfl⟩ := h
  refine ⟨⟨_, rfl⟩, ?_, ?_⟩
  · intro c hc
    rcases List.mem_cons.1 hc with rfl | hc
    · decide
    · rcases List.mem_append.1 hc with hc | hc
      · rcases hgap c hc with hblank | rfl
        · simp [isHeadChar, hblank]
        · decide
      · rcases hname.chars c hc with htag | rfl
        · simp [isHeadChar, htag]
        · decide
  · intro hlast
    rw [List.getLast?_cons, List.getLast?_append] at hlast
    cases hl : name.getLast? with
    | none => exact absurd (List.getLast?_eq_none_iff.1 hl) hname.ne_nil
    | some c =>
      rw [hl, Option.some_or, Option.getD_some, Option.some.injEq] at hlast
      exact hname.not_mem (by decide) (by decide) (hlast ▸ List.mem_of_getLast? hl)

namespace HeadLike

variable {head s t : List Char} {c : Char}

theorem not_mem (hhead : HeadLike head) (hc : isHeadChar c = false) : c ∉ head := by
  intro hmem
  rw [hhead.chars c hmem] at hc
  cases hc

/-- At a character that is none of a head, a text can be cut. -/
theorem or_of_append_cons (hhead : HeadLike head) (hc : isHeadChar c = false)
    (h : StandsIn head (s ++ c :: t)) : StandsIn head s ∨ StandsIn head t :=
  h.or_of_append_cons (hhead.not_mem hc)

/-- A head does not start in a text without `<`. -/
theorem of_append_of_not_mem (hhead : HeadLike head) (hs : '<' ∉ s) (h : StandsIn head (s ++ t)) :
    StandsIn head t := by
  obtain ⟨before, after, heq, hafter⟩ := h
  obtain ⟨r, rfl⟩ := hhead.opens
  rw [List.append_assoc] at heq
  rcases List.append_eq_append_iff.1 heq with ⟨more, hbefore, hrest⟩ | ⟨more, hmore, hrest⟩
  · exact ⟨more, after, by rw [hrest, List.append_assoc], hafter⟩
  · cases more with
    | nil => exact ⟨[], after, by simpa using hrest.symm, hafter⟩
    | cons d more =>
      rw [List.cons_append, List.cons_append] at hrest
      have hd : '<' = d := (List.cons.inj hrest).1
      exact absurd (by rw [hmore, hd]; simp) hs

theorem of_cons_of_ne (hhead : HeadLike head) (hc : c ≠ '<') (h : StandsIn head (c :: t)) :
    StandsIn head t :=
  hhead.of_append_of_not_mem (s := [c]) (by simpa using Ne.symm hc) h

theorem not_of_not_mem (hhead : HeadLike head) (hs : '<' ∉ s) : ¬ StandsIn head s := by
  rintro ⟨before, after, rfl, -⟩
  obtain ⟨r, rfl⟩ := hhead.opens
  exact hs (by simp)

end HeadLike

/-- A text into which no head reaches from outside: it opens with `@`, perhaps behind a space, and no `<`
stands behind the last `@` or `)` that closes it. -/
structure Sealed (s : List Char) : Prop where
  opens : ∃ r, s = '@' :: r ∨ s = ' ' :: '@' :: r
  closes : ∃ front c back, s = front ++ c :: back ∧ (c = '@' ∨ c = ')') ∧ '<' ∉ back

theorem Sealed.coversTag {s : List Char} (h : Sealed s) : CoversTag s := by
  obtain ⟨r, rfl | rfl⟩ := h.opens
  · exact ⟨_, _, rfl, by decide⟩
  · exact ⟨_, _, rfl, by decide⟩

namespace Pattern

variable {α : Type} {p : Pattern α} {f : α → List Char}

/-- What starts a replaced text and may be the rest of a head started the text before. -/
theorem prefix_append_of_ends_replace (tags : p.ReadsTags) (closed : ∀ a, Sealed (f a))
    {s part after : List Char} (hchars : ∀ c ∈ part, isHeadChar c = true)
    (hending : part.getLast? ≠ some ' ') (h : p.replace f s = part ++ after)
    (hafter : Markup.endsName after = true) :
    ∃ rest, s = part ++ rest ∧ Markup.endsName rest = true := by
  induction s using reading_induction p generalizing part with
  | nil =>
    rw [replace_nil] at h
    obtain ⟨rfl, rfl⟩ := List.append_eq_nil_iff.1 h.symm
    exact ⟨[], rfl, rfl⟩
  | found s a rest hmatch _ =>
    obtain ⟨r, hs⟩ := tags.eq_cons hmatch
    cases part with
    | nil => exact ⟨s, rfl, by rw [hs]; rfl⟩
    | cons c part =>
      rw [replace_of_match hmatch] at h
      obtain ⟨t, ht | ht⟩ := (closed a).opens
      · -- the head would go on with the `@` of the directive
        rw [ht] at h
        have hc := hchars c (by simp)
        have hat : '@' = c := (List.cons.inj h).1
        rw [← hat] at hc
        exact absurd hc (by decide)
      · -- or end in the space in front of it
        rw [ht] at h
        obtain ⟨hc, h⟩ := List.cons.inj h
        cases part with
        | nil => exact absurd (by rw [← hc]; rfl) hending
        | cons d part =>
          have hd := hchars d (by simp)
          have hat : '@' = d := (List.cons.inj h).1
          rw [← hat] at hd
          exact absurd hd (by decide)
  | skip c s hnone ih =>
    rw [replace_cons_of_none hnone] at h
    cases part with
    | nil =>
      refine ⟨c :: s, rfl, ?_⟩
      rw [List.nil_append] at h
      rw [← h] at hafter
      exact hafter
    | cons d part =>
      rw [List.cons_append] at h
      obtain ⟨hcd, h⟩ := List.cons.inj h
      have hending' : part.getLast? ≠ some ' ' := by
        intro hlast
        apply hending
        rw [List.getLast?_cons, hlast, Option.getD_some]
      obtain ⟨rest, hrest, hends⟩ := ih (fun c hc => hchars c (by simp [hc])) hending' h
      exact ⟨rest, by rw [hcd, hrest, List.cons_append], hends⟩

/-- A head in a text whose tags were replaced by directives stood in the text before, or it stands in one
of the directives. -/
theorem standsIn_replace (tags : p.ReadsTags) (closed : ∀ a, Sealed (f a)) {head s : List Char}
    (hhead : HeadLike head) (h : StandsIn head (p.replace f s)) :
    StandsIn head s ∨ ∃ t a rest, t <:+ s ∧ p.match? t = some (a, rest) ∧ StandsIn head (f a) := by
  induction s using reading_induction p with
  | nil => exact .inl (by simpa using h)
  | found s a rest hmatch ih =>
    rw [replace_of_match hmatch] at h
    obtain ⟨front, c, back, hfa, hc, hback⟩ := (closed a).closes
    have hsep : isHeadChar c = false := by rcases hc with rfl | rfl <;> decide
    have hend : Markup.continuesName c = false := by rcases hc with rfl | rfl <;> decide
    have hsuffix : rest <:+ s := tags.follows s a rest hmatch
    rw [hfa, List.append_assoc, List.cons_append] at h
    rcases hhead.or_of_append_cons hsep h with h | h
    · exact .inr ⟨s, a, rest, List.suffix_rfl, hmatch, hfa ▸ h.of_left hend⟩
    · rcases ih (hhead.of_append_of_not_mem hback h) with h | ⟨t, a', rest', ht, hmatch', h⟩
      · exact .inl (h.trans (.of_isSuffix hsuffix))
      · exact .inr ⟨t, a', rest', ht.trans hsuffix, hmatch', h⟩
  | skip c s hnone ih =>
    rw [replace_cons_of_none hnone] at h
    obtain ⟨before, after, heq, hafter⟩ := h
    cases before with
    | nil =>
      have hwhole : p.replace f (c :: s) = head ++ after := by
        rw [replace_cons_of_none hnone, heq, List.nil_append]
      obtain ⟨rest, hrest, hends⟩ :=
        prefix_append_of_ends_replace tags closed hhead.chars hhead.ending hwhole hafter
      exact .inl ⟨[], rest, by simpa using hrest, hends⟩
    | cons d before =>
      rw [List.cons_append, List.cons_append] at heq
      have hlater : StandsIn head (p.replace f s) := ⟨before, after, (List.cons.inj heq).2, hafter⟩
      rcases ih hlater with h | ⟨t, a, rest, ht, hmatch, h⟩
      · exact .inl (h.trans (.of_isSuffix (List.suffix_cons c s)))
      · exact .inr ⟨t, a, rest, ht.trans (List.suffix_cons c s), hmatch, h⟩

end Pattern

end ComponentTags
