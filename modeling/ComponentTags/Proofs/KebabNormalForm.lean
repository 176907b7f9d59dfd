import ComponentTags.Proofs.KebabCase
import ComponentTags.Proofs.SmallForm

/-!
# Kebab case as a normal form

A text is in kebab case if single hyphens are its only separators and it holds no capital. Whatever a name is, its
kebab case is such a text, and these are exactly the texts that kebab case keeps. The hyphens put in front of
capitals and in the place of white space join the separators next to them in one run, and each run leaves one
hyphen. Small forms are never empty and bring in neither separators nor white space, so no two hyphens come together
when the letters turn small.
-/

namespace ComponentTags.Text

variable {s t form : List Char} {c : Char} {p : Char → Bool}

/-! ## Texts with single hyphens -/

/-- The text has neither white space nor underscores, and no two hyphens stand side by side. -/
structure IsHyphenated (t : List Char) : Prop where
  isBlank_eq_false : ∀ c ∈ t, isBlank c = false
  underscore_not_mem : '_' ∉ t
  single : ¬ ['-', '-'] <:+: t

theorem isHyphenated_nil : IsHyphenated [] where
  isBlank_eq_false := List.forall_mem_nil _
  underscore_not_mem := List.not_mem_nil
  single := by simp

theorem double_infix_cons_iff :
    ['-', '-'] <:+: c :: t ↔ c = '-' ∧ t.head? = some '-' ∨ ['-', '-'] <:+: t := by
  rw [List.infix_cons_iff, List.cons_prefix_cons, eq_comm]
  cases t with
  | nil => simp
  | cons d t => simp [eq_comm]

theorem ne_hyphen_of_isWordPart (h : isWordPart c = true) : c ≠ '-' := by
  rintro rfl
  exact absurd h (by decide)

/-- Such a text starts with a part of a word, or with a hyphen that no other one follows. -/
theorem isHyphenated_cons_iff :
    IsHyphenated (c :: t) ↔ (isWordPart c = true ∨ c = '-' ∧ t.head? ≠ some '-') ∧ IsHyphenated t := by
  constructor
  · intro h
    obtain ⟨hblank, hblanks⟩ := List.forall_mem_cons.1 h.isBlank_eq_false
    obtain ⟨hunderscore, hunderscores⟩ := not_or.1 fun hmem => h.underscore_not_mem (List.mem_cons.2 hmem)
    obtain ⟨hnext, hsingle⟩ := not_or.1 fun hdouble => h.single (double_infix_cons_iff.2 hdouble)
    refine ⟨?_, hblanks, hunderscores, hsingle⟩
    by_cases hc : c = '-'
    · exact .inr ⟨hc, fun hhead => hnext ⟨hc, hhead⟩⟩
    · left
      rw [isWordPart_iff, isSeparator, Bool.or_eq_false_iff, beq_eq_false_iff_ne, beq_eq_false_iff_ne]
      exact ⟨⟨hc, Ne.symm hunderscore⟩, hblank⟩
  · rintro ⟨hc, h⟩
    have hpart : isBlank c = false ∧ c ≠ '_' := by
      rcases hc with hc | ⟨rfl, -⟩
      · refine ⟨(isWordPart_iff.1 hc).2, ?_⟩
        rintro rfl
        exact absurd hc (by decide)
      · decide
    refine ⟨List.forall_mem_cons.2 ⟨hpart.1, h.isBlank_eq_false⟩, ?_, ?_⟩
    · rw [List.mem_cons, not_or]
      exact ⟨Ne.symm hpart.2, h.underscore_not_mem⟩
    · rw [double_infix_cons_iff, not_or]
      refine ⟨?_, h.single⟩
      rintro ⟨rfl, hhead⟩
      rcases hc with hc | ⟨-, hnext⟩
      · exact ne_hyphen_of_isWordPart hc rfl
      · exact hnext hhead

/-- Parts of words may stand in front. -/
theorem IsHyphenated.append (h : IsHyphenated t) (parts : ∀ c ∈ form, isWordPart c = true) :
    IsHyphenated (form ++ t) := by
  induction form with
  | nil => exact h
  | cons c form ih =>
    obtain ⟨hc, hform⟩ := List.forall_mem_cons.1 parts
    exact isHyphenated_cons_iff.2 ⟨.inl hc, ih hform⟩

/-! ## Runs of separators -/

/-- The last character of a run leaves the hyphen. -/
theorem hyphenateRuns_cons_of_pos (h : p c = true) (s : List Char) :
    hyphenateRuns p (c :: s) = if s.head?.any p then hyphenateRuns p s else '-' :: hyphenateRuns p s := by
  cases s with
  | nil => simp [hyphenateRuns, h]
  | cons d s =>
    rw [hyphenateRuns, if_pos h]
    rfl

theorem of_mem_hyphenateRuns (h : c ∈ hyphenateRuns p s) : c = '-' ∨ c ∈ s ∧ p c = false := by
  induction s with
  | nil => cases h
  | cons d s ih =>
    have hrest (hc : c ∈ hyphenateRuns p s) : c = '-' ∨ c ∈ d :: s ∧ p c = false :=
      (ih hc).imp_right fun hs => hs.imp_left (List.mem_cons_of_mem d)
    cases hd : p d with
    | false =>
      rw [hyphenateRuns_cons_of_not hd] at h
      rcases List.mem_cons.1 h with rfl | h
      · exact .inr ⟨List.mem_cons_self, hd⟩
      · exact hrest h
    | true =>
      rw [hyphenateRuns_cons_of_pos hd] at h
      split at h
      · exact hrest h
      · exact (List.mem_cons.1 h).elim .inl hrest

theorem isHyphenated_hyphenateRuns (h : ∀ c ∈ s, isBlank c = false) : IsHyphenated (hyphenateRuns isSeparator s) := by
  induction s with
  | nil => exact isHyphenated_nil
  | cons c s ih =>
    obtain ⟨hblank, hs⟩ := List.forall_mem_cons.1 h
    cases hc : isSeparator c with
    | false =>
      rw [hyphenateRuns_cons_of_not hc]
      exact isHyphenated_cons_iff.2 ⟨.inl (isWordPart_iff.2 ⟨hc, hblank⟩), ih hs⟩
    | true =>
      rw [hyphenateRuns_cons_of_pos hc]
      split
      · exact ih hs
      · rename_i hend
        refine isHyphenated_cons_iff.2 ⟨.inr ⟨rfl, ?_⟩, ih hs⟩
        -- Behind the run stands nothing or a character that is kept.
        cases s with
        | nil => exact fun hhead => by cases hhead
        | cons d s =>
          rw [List.head?_cons, Option.any_some, Bool.not_eq_true] at hend
          rw [hyphenateRuns_cons_of_not hend, List.head?_cons, ne_eq, Option.some_inj]
          rintro rfl
          exact absurd hend (by decide)

namespace IsHyphenated

theorem hyphenateRuns_eq_self (h : IsHyphenated t) : hyphenateRuns isSeparator t = t := by
  induction t with
  | nil => rfl
  | cons c t ih =>
    obtain ⟨hc, ht⟩ := isHyphenated_cons_iff.1 h
    rcases hc with hc | ⟨rfl, hnext⟩
    · rw [hyphenateRuns_cons_of_not (isWordPart_iff.1 hc).1, ih ht]
    · cases t with
      | nil => rfl
      | cons d t =>
        have hd := (isHyphenated_cons_iff.1 ht).1.resolve_right fun hd => hnext (by rw [hd.1, List.head?_cons])
        rw [hyphenateRuns_hyphen_cons (isWordPart_iff.1 hd).1, ih ht]

/-! ## Small letters -/

theorem head?_lowerFrom (h : IsHyphenated s) (hs : s.head? ≠ some '-') (inWord : Bool) :
    (lowerFrom inWord s).head? ≠ some '-' := by
  cases s with
  | nil => exact hs
  | cons c s =>
    have hc := (isHyphenated_cons_iff.1 h).1.resolve_right fun hc => hs (by rw [hc.1, List.head?_cons])
    obtain ⟨form, hform, hlower⟩ := exists_lowerFrom_cons inWord c s
    obtain ⟨d, rest, rfl⟩ := List.exists_cons_of_ne_nil hform.ne_nil
    rw [hlower, List.cons_append, List.head?_cons, ne_eq, Option.some_inj]
    exact ne_hyphen_of_isWordPart (hform.isWordPart hc d List.mem_cons_self)

theorem lowerFrom (h : IsHyphenated s) (inWord : Bool) : IsHyphenated (lowerFrom inWord s) := by
  induction s generalizing inWord with
  | nil => exact isHyphenated_nil
  | cons c s ih =>
    obtain ⟨hc, hs⟩ := isHyphenated_cons_iff.1 h
    obtain ⟨form, hform, hlower⟩ := exists_lowerFrom_cons inWord c s
    rw [hlower]
    rcases hc with hc | ⟨rfl, hnext⟩
    · exact (ih hs _).append (hform.isWordPart hc)
    · rw [hform.eq_of_not_isCapital (by decide +kernel), List.singleton_append]
      exact isHyphenated_cons_iff.2 ⟨.inr ⟨rfl, hs.head?_lowerFrom hnext _⟩, ih hs _⟩

end IsHyphenated

/-! ## The normal form -/

/-- The text is in kebab case: single hyphens are its only separators, and no letter of any script is a capital. -/
structure IsKebab (t : List Char) : Prop extends IsHyphenated t where
  isCapital_eq_false : ∀ c ∈ t, isCapital c = false

/-- Every name is in kebab case afterwards. -/
theorem isKebab_kebabCase (s : List Char) : IsKebab (kebabCase s) := by
  have hblank : ∀ c ∈ hyphenateRuns isBlank (splitCapitals s), isBlank c = false := by
    intro c hc
    rcases of_mem_hyphenateRuns hc with rfl | ⟨-, hc⟩
    · decide
    · exact hc
  exact ⟨(isHyphenated_hyphenateRuns hblank).lowerFrom false, fun _ => isCapital_of_mem_lowerFrom⟩

/-- The texts in kebab case are those that kebab case keeps. -/
theorem kebabCase_eq_self_iff : kebabCase t = t ↔ IsKebab t := by
  constructor
  · intro h
    rw [← h]
    exact isKebab_kebabCase t
  · intro h
    have hupper : ∀ c ∈ t, c.isUpper = false := fun c hc => isUpper_of_not_isCapital (h.isCapital_eq_false c hc)
    rw [kebabCase, splitCapitals_eq_self hupper, Text.hyphenateRuns_eq_self h.isBlank_eq_false,
      h.toIsHyphenated.hyphenateRuns_eq_self, lower_eq_self h.isCapital_eq_false]

/-- The kebab case of a name has no ASCII capital, no white space, no underscore and no two hyphens side by side,
and it is its own kebab case. A name that is in kebab case already, and no other one, is kept. -/
theorem kebabCase_normal (s : List Char) :
    (∀ c ∈ kebabCase s, c.isUpper = false ∧ isBlank c = false ∧ c ≠ '_') ∧ ¬ ['-', '-'] <:+: kebabCase s ∧
      kebabCase (kebabCase s) = kebabCase s ∧ (kebabCase s = s ↔ IsKebab s) := by
  have hkebab := isKebab_kebabCase s
  refine ⟨fun c hc => ⟨?_, hkebab.isBlank_eq_false c hc, ?_⟩, hkebab.single, kebabCase_eq_self_iff.2 hkebab,
    kebabCase_eq_self_iff⟩
  · exact isUpper_of_not_isCapital (hkebab.isCapital_eq_false c hc)
  · rintro rfl
    exact hkebab.underscore_not_mem hc

end ComponentTags.Text
