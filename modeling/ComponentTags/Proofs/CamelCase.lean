import ComponentTags.Proofs.ElementName

/-!
# Camel case behind a mark

The first word of a name starts small and every other word with a capital. A mark in front of the name becomes
part of its first word, so the small start is then the one of the mark, and the name's own first letter stays
as it is written, or becomes a capital if a separator stands in front of it.
-/

namespace ComponentTags

namespace Text

variable {s mark : List Char} {c : Char}

/-- The characters of words. -/
def isWordPart (c : Char) : Bool :=
  !(isSeparator c || isBlank c)

theorem isWordPart_iff : isWordPart c = true ↔ isSeparator c = false ∧ isBlank c = false := by
  rw [isWordPart, Bool.not_eq_true', Bool.or_eq_false_iff]

theorem words_cons_of_not_part (h : isWordPart c = false) : words (c :: s) = words s := by
  rw [isWordPart, Bool.not_eq_false'] at h
  rw [words.eq_def]
  simp only [h, if_true]

/-- A word runs up to the next separator. -/
theorem words_cons (h : isWordPart c = true) :
    words (c :: s) = (c :: s.takeWhile isWordPart) :: words (s.dropWhile isWordPart) := by
  induction s generalizing c with
  | nil =>
    rw [isWordPart, Bool.not_eq_true'] at h
    simp [words, h]
  | cons d r ih =>
    rw [isWordPart, Bool.not_eq_true'] at h
    rw [words.eq_def]
    cases hd : isWordPart d with
    | true =>
      have hword := ih hd
      rw [List.takeWhile_cons_of_pos hd, List.dropWhile_cons_of_pos hd]
      rw [isWordPart, Bool.not_eq_true'] at hd
      simp [h, hd, hword]
    | false =>
      have hnone : ¬ isWordPart d = true := by simp [hd]
      rw [List.takeWhile_cons_of_neg hnone, List.dropWhile_cons_of_neg hnone]
      rw [isWordPart, Bool.not_eq_false'] at hd
      cases hrest : words (d :: r) <;> simp [h, hd, hrest]

theorem studlyCase_cons_of_not_part (h : isWordPart c = false) : studlyCase (c :: s) = studlyCase s := by
  rw [studlyCase, words_cons_of_not_part h, studlyCase]

theorem studlyCase_cons (h : isWordPart c = true) :
    studlyCase (c :: s) =
      upperChar c ++ (s.takeWhile isWordPart ++ studlyCase (s.dropWhile isWordPart)) := by
  rw [studlyCase, words_cons h, List.flatMap_cons, capitalize, List.append_assoc, studlyCase]

/-- The name as it is behind a mark: what is left of the mark's word, and the words behind it. -/
def continuedCase (s : List Char) : List Char :=
  s.takeWhile isWordPart ++ studlyCase (s.dropWhile isWordPart)

theorem continuedCase_cons (h : isWordPart c = true) : continuedCase (c :: s) = c :: continuedCase s := by
  rw [continuedCase, List.takeWhile_cons_of_pos h, List.dropWhile_cons_of_pos h, List.cons_append,
    continuedCase]

theorem continuedCase_cons_of_not_part (h : isWordPart c = false) :
    continuedCase (c :: s) = studlyCase s := by
  have hnone : ¬ isWordPart c = true := by simp [h]
  rw [continuedCase, List.takeWhile_cons_of_neg hnone, List.dropWhile_cons_of_neg hnone,
    List.nil_append, studlyCase_cons_of_not_part h]

theorem continuedCase_append (h : ∀ c ∈ mark, isWordPart c = true) (s : List Char) :
    continuedCase (mark ++ s) = mark ++ continuedCase s := by
  induction mark with
  | nil => rfl
  | cons c mark ih =>
    rw [List.cons_append, continuedCase_cons (h c (by simp)), ih fun d hd => h d (by simp [hd]),
      List.cons_append]

theorem studlyCase_eq_continuedCase (h : isWordPart c = true) :
    studlyCase (c :: s) = upperChar c ++ continuedCase s := by
  rw [studlyCase_cons h, continuedCase]

/-! ## Names in ASCII -/

/-- The forms of the letters and digits, checked one by one. -/
theorem forms_of_isAlphanum (h : c.isAlphanum = true) :
    isWordPart c = true ∧ upperChar c = [c.toUpper] ∧ lowerChar c.toUpper = [c.toLower] ∧
      (c = c.toLower ↔ c.isLower = true ∨ c.isDigit = true) ∧ (c.toUpper = c.toLower ↔ c.isDigit = true) ∧
      (c ≠ c.toLower → c = c.toUpper) := by
  have all : ∀ n < 128, (Char.ofNat n).isAlphanum = true →
      let c := Char.ofNat n
      isWordPart c = true ∧ upperChar c = [c.toUpper] ∧ lowerChar c.toUpper = [c.toLower] ∧
        (c = c.toLower ↔ c.isLower = true ∨ c.isDigit = true) ∧
        (c.toUpper = c.toLower ↔ c.isDigit = true) ∧ (c ≠ c.toLower → c = c.toUpper) := by
    decide +kernel
  have hc := all c.toNat (toNat_lt_of_isTagChar (by simp [isTagChar, h]))
  rw [Char.ofNat_toNat] at hc
  exact hc h

theorem isWordPart_of_isAlphanum (h : c.isAlphanum = true) : isWordPart c = true :=
  (forms_of_isAlphanum h).1

theorem upperChar_of_isAlphanum (h : c.isAlphanum = true) : upperChar c = [c.toUpper] :=
  (forms_of_isAlphanum h).2.1

theorem lowerChar_toUpper_of_isAlphanum (h : c.isAlphanum = true) : lowerChar c.toUpper = [c.toLower] :=
  (forms_of_isAlphanum h).2.2.1

/-- The first letter or digit of a name. -/
def firstAlphanum (s : List Char) : Option Char :=
  (s.dropWhile isSeparator).head?

/-- The case forms of a name differ in their first character only, which is the first letter or digit of the
name: as a capital, small, or behind a mark as it is written, unless a separator stands in front of it. -/
theorem exists_cases (chars : ∀ c ∈ s, c.isAlphanum = true ∨ isSeparator c = true)
    (proper : ∃ c ∈ s, c.isAlphanum = true) :
    ∃ d rest, firstAlphanum s = some d ∧ d.isAlphanum = true ∧ studlyCase s = d.toUpper :: rest ∧
      camelCase s = d.toLower :: rest ∧
      continuedCase s = (if s.head? = some d then d else d.toUpper) :: rest := by
  induction s with
  | nil =>
    obtain ⟨c, hc, -⟩ := proper
    cases hc
  | cons c s ih =>
    cases hc : c.isAlphanum with
    | true =>
      have hpart := isWordPart_of_isAlphanum hc
      have hsep : ¬ isSeparator c = true := fun hsep => by simp [isWordPart, hsep] at hpart
      have hstudly : studlyCase (c :: s) = c.toUpper :: continuedCase s := by
        rw [studlyCase_eq_continuedCase hpart, upperChar_of_isAlphanum hc, List.singleton_append]
      refine ⟨c, continuedCase s, ?_, hc, hstudly, ?_, ?_⟩
      · rw [firstAlphanum, List.dropWhile_cons_of_neg hsep, List.head?_cons]
      · rw [camelCase, hstudly, uncapitalize, lowerChar_toUpper_of_isAlphanum hc, List.singleton_append]
      · rw [continuedCase_cons hpart, List.head?_cons, if_pos rfl]
    | false =>
      have hsep : isSeparator c = true := (chars c (by simp)).resolve_left (by simp [hc])
      have hpart : isWordPart c = false := by simp [isWordPart, hsep]
      have hproper : ∃ d ∈ s, d.isAlphanum = true := by
        obtain ⟨d, hd, halnum⟩ := proper
        refine ⟨d, (List.mem_cons.1 hd).resolve_left ?_, halnum⟩
        rintro rfl
        rw [hc] at halnum
        cases halnum
      obtain ⟨d, rest, hfirst, hd, hstudly, hcamel, -⟩ := ih (fun d hd => chars d (by simp [hd])) hproper
      have hne : ¬ some c = some d := by
        rintro heq
        cases heq
        rw [hc] at hd
        cases hd
      refine ⟨d, rest, ?_, hd, ?_, ?_, ?_⟩
      · rw [firstAlphanum, List.dropWhile_cons_of_pos hsep]
        exact hfirst
      · rw [studlyCase_cons_of_not_part hpart, hstudly]
      · rw [camelCase, studlyCase_cons_of_not_part hpart]
        exact hcamel
      · rw [continuedCase_cons_of_not_part hpart, hstudly, List.head?_cons, if_neg hne]

/-- The name starts with a small letter, or its first letter or digit is a digit. -/
def StartsSmall (s : List Char) : Prop :=
  (∃ c ∈ s.head?, c.isLower = true) ∨ ∃ c ∈ firstAlphanum s, c.isDigit = true

theorem startsSmall_iff {d : Char} (hfirst : firstAlphanum s = some d) :
    StartsSmall s ↔ s.head? = some d ∧ d.isLower = true ∨ d.isDigit = true := by
  have hhead : (∃ c ∈ s.head?, c.isLower = true) ↔ s.head? = some d ∧ d.isLower = true := by
    constructor
    · rintro ⟨c, hc, hlower⟩
      obtain ⟨r, rfl⟩ : ∃ r, s = c :: r := by
        cases s with
        | nil => cases hc
        | cons e r =>
          cases hc
          exact ⟨r, rfl⟩
      have halnum : c.isAlphanum = true := by
        unfold Char.isAlphanum Char.isAlpha
        simp [hlower]
      have hpart := isWordPart_of_isAlphanum halnum
      have hsep : ¬ isSeparator c = true := fun hsep => by simp [isWordPart, hsep] at hpart
      rw [firstAlphanum, List.dropWhile_cons_of_neg hsep, List.head?_cons] at hfirst
      cases hfirst
      exact ⟨hc, hlower⟩
    · rintro ⟨hd, hlower⟩
      exact ⟨d, hd, hlower⟩
  have hsign : (∃ c ∈ firstAlphanum s, c.isDigit = true) ↔ d.isDigit = true := by simp [hfirst]
  rw [StartsSmall, hhead, hsign]

/-- Behind a mark a name is in camel case exactly if it starts small, and otherwise it has one capital more. -/
theorem continuedCase_eq (chars : ∀ c ∈ s, c.isAlphanum = true ∨ isSeparator c = true)
    (proper : ∃ c ∈ s, c.isAlphanum = true) :
    (continuedCase s = camelCase s ↔ StartsSmall s) ∧ (¬ StartsSmall s → continuedCase s = studlyCase s) := by
  obtain ⟨d, rest, hfirst, hd, hstudly, hcamel, hcontinued⟩ := exists_cases chars proper
  obtain ⟨-, -, -, written, capital, either⟩ := forms_of_isAlphanum hd
  rw [startsSmall_iff hfirst, hcontinued, hcamel, hstudly]
  by_cases hhead : s.head? = some d
  · simp only [hhead, if_true, List.cons.injEq, and_true, true_and, ← written]
    exact either
  · simp [hhead, capital]

end Text

namespace Attribute

/-- The marker of bound attributes takes the small start. -/
theorem camelCase_bindMarker_append (s : List Char) :
    Text.camelCase (bindMarker ++ s) = bindMarker ++ Text.continuedCase s := by
  have mark : ∀ c ∈ "ind:".toList, Text.isWordPart c = true := List.all_eq_true.1 (by decide)
  have hmark : bindMarker ++ s = 'b' :: ("ind:".toList ++ s) := rfl
  have capital : Text.upperChar 'b' = ['B'] := by decide
  have small : Text.lowerChar 'B' = ['b'] := by decide
  rw [hmark, Text.camelCase, Text.studlyCase_eq_continuedCase (by decide), capital, List.singleton_append,
    Text.uncapitalize, small, Text.continuedCase_append mark]
  rfl

end Attribute

end ComponentTags
