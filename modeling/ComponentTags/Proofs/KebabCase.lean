import ComponentTags.Proofs.CamelCase

/-!
# Kebab case and camel case

Camel case drops the hyphens between the words of a name and marks the start of each further word by a capital.
Kebab case puts a hyphen where a capital follows a small letter or a digit. So it finds the words again if each has
a character behind its first one: of a word of one letter only the capital would be left, and a capital that follows
it is not seen as a start.
-/

namespace ComponentTags.Text

variable {s t word : List Char} {c d : Char} {p : Char → Bool}

/-! ## Hyphens in front of capitals -/

/-- The characters that a capital behind them starts a word after. -/
def isSmall (c : Char) : Bool :=
  c.isLower || c.isDigit

theorem isAlphanum_of_isSmall (h : isSmall c = true) : c.isAlphanum = true := by
  rw [isSmall, Bool.or_eq_true] at h
  unfold Char.isAlphanum Char.isAlpha
  rcases h with h | h <;> simp [h]

theorem toNat_lt_of_isAlphanum (h : c.isAlphanum = true) : c.toNat < 128 :=
  toNat_lt_of_isTagChar (by simp [isTagChar, h])

theorem isUpper_of_isSmall (h : isSmall c = true) : c.isUpper = false := by
  have all := of_ascii (q := fun c => !isSmall c || !c.isUpper) (by decide +kernel)
    (toNat_lt_of_isAlphanum (isAlphanum_of_isSmall h))
  simpa [h] using all

theorem toLower_of_isSmall (h : isSmall c = true) : c.toLower = c := by
  obtain ⟨-, -, -, hsmall, -⟩ := forms_of_isAlphanum (isAlphanum_of_isSmall h)
  rw [isSmall, Bool.or_eq_true] at h
  exact (hsmall.2 h).symm

theorem splitCapitals_cons_of_not_small (h : isSmall c = false) (s : List Char) :
    splitCapitals (c :: s) = c :: splitCapitals s := by
  cases s with
  | nil => rfl
  | cons d s =>
    have hkept : ¬ ((c.isLower || c.isDigit) && d.isUpper) = true := by
      rw [isSmall] at h
      simp [h]
    rw [splitCapitals, if_neg hkept]

theorem splitCapitals_cons_cons_of_not_upper (h : d.isUpper = false) (c : Char) (s : List Char) :
    splitCapitals (c :: d :: s) = c :: splitCapitals (d :: s) := by
  have hkept : ¬ ((c.isLower || c.isDigit) && d.isUpper) = true := by simp [h]
  rw [splitCapitals, if_neg hkept]

/-- A text without capitals is kept. -/
theorem splitCapitals_eq_self (h : ∀ c ∈ s, c.isUpper = false) : splitCapitals s = s := by
  induction s with
  | nil => rfl
  | cons c s ih =>
    cases s with
    | nil => rfl
    | cons d s =>
      rw [splitCapitals_cons_cons_of_not_upper (h d (by simp)), ih fun e he => h e (by simp [he])]

/-- A capital behind small characters starts a word. -/
theorem splitCapitals_append_cons (hne : word ≠ []) (small : ∀ c ∈ word, isSmall c = true)
    (hd : d.isUpper = true) (s : List Char) :
    splitCapitals (word ++ d :: s) = word ++ '-' :: splitCapitals (d :: s) := by
  induction word with
  | nil => exact absurd rfl hne
  | cons c word ih =>
    obtain ⟨hc, hword⟩ := List.forall_mem_cons.1 small
    cases word with
    | nil =>
      have hstarts : ((c.isLower || c.isDigit) && d.isUpper) = true := by
        rw [isSmall] at hc
        simp [hc, hd]
      simp only [List.singleton_append, splitCapitals, if_pos hstarts]
    | cons e word =>
      have hrest := ih (by simp) hword
      simp only [List.cons_append] at hrest ⊢
      rw [splitCapitals_cons_cons_of_not_upper (isUpper_of_isSmall (hword e (by simp))), hrest]

/-! ## Runs of separators -/

theorem hyphenateRuns_cons_of_not (h : p c = false) (s : List Char) :
    hyphenateRuns p (c :: s) = c :: hyphenateRuns p s := by
  cases s <;> simp [hyphenateRuns, h]

theorem hyphenateRuns_append (h : ∀ c ∈ t, p c = false) (s : List Char) :
    hyphenateRuns p (t ++ s) = t ++ hyphenateRuns p s := by
  induction t with
  | nil => rfl
  | cons c t ih =>
    obtain ⟨hc, ht⟩ := List.forall_mem_cons.1 h
    rw [List.cons_append, hyphenateRuns_cons_of_not hc, ih ht, List.cons_append]

theorem hyphenateRuns_eq_self (h : ∀ c ∈ s, p c = false) : hyphenateRuns p s = s := by
  have hrun := hyphenateRuns_append h []
  rwa [List.append_nil, hyphenateRuns, List.append_nil] at hrun

/-- A hyphen that stands alone is kept. -/
theorem hyphenateRuns_hyphen_cons (h : isSeparator c = false) (s : List Char) :
    hyphenateRuns isSeparator ('-' :: c :: s) = '-' :: hyphenateRuns isSeparator (c :: s) := by
  have hhyphen : isSeparator '-' = true := by decide
  simp [hyphenateRuns, hhyphen, h]

/-- A colon in front of a name stays in front of its kebab case. -/
theorem kebabCase_colon_cons (s : List Char) : kebabCase (':' :: s) = ':' :: kebabCase s := by
  have hsplit : isSmall ':' = false := by decide
  have hblank : isBlank ':' = false := by decide
  have hseparator : isSeparator ':' = false := by decide
  have hword : (if isCaseIgnorable ':' then false else isCased ':') = false := by decide
  rw [kebabCase, splitCapitals_cons_of_not_small hsplit, hyphenateRuns_cons_of_not hblank,
    hyphenateRuns_cons_of_not hseparator, lower, lowerFrom, hword]
  rfl

/-! ## Words joined by hyphens -/

/-- A word ends in front of a separator. -/
theorem words_append (hne : word ≠ []) (parts : ∀ c ∈ word, isWordPart c = true)
    (hs : ∀ c ∈ s.head?, isWordPart c = false) : words (word ++ s) = word :: words s := by
  have htake : s.takeWhile isWordPart = [] ∧ s.dropWhile isWordPart = s := by
    cases s with
    | nil => exact ⟨rfl, rfl⟩
    | cons d s =>
      have hd : ¬ isWordPart d = true := by simp [hs d rfl]
      exact ⟨List.takeWhile_cons_of_neg hd, List.dropWhile_cons_of_neg hd⟩
  cases word with
  | nil => exact absurd rfl hne
  | cons c word =>
    obtain ⟨hc, hword⟩ := List.forall_mem_cons.1 parts
    rw [List.cons_append, words_cons hc, List.takeWhile_append_of_pos hword, List.dropWhile_append_of_pos hword,
      htake.1, htake.2, List.append_nil]

/-- A word of a name: a small ASCII letter, and behind it small ASCII letters and digits, at least one. -/
structure NameWord where
  first : Char
  others : List Char
  firstLower : first.isLower = true
  othersSmall : ∀ c ∈ others, isSmall c = true
  others_ne_nil : others ≠ []

namespace NameWord

variable (w : NameWord) (ws : List NameWord)

def text : List Char := w.first :: w.others

/-- The word with a capital. -/
def capital : List Char := w.first.toUpper :: w.others

theorem text_ne_nil : w.text ≠ [] := List.cons_ne_nil _ _

theorem first_isSmall : isSmall w.first = true := by
  simp [isSmall, w.firstLower]

theorem isSmall_of_mem_text : ∀ c ∈ w.text, isSmall c = true :=
  List.forall_mem_cons.2 ⟨w.first_isSmall, w.othersSmall⟩

theorem isWordPart_of_mem_text : ∀ c ∈ w.text, isWordPart c = true := fun c hc =>
  isWordPart_of_isAlphanum (isAlphanum_of_isSmall (w.isSmall_of_mem_text c hc))

theorem isUpper_toUpper_first : w.first.toUpper.isUpper = true := by
  have all := of_ascii (q := fun c => !c.isLower || c.toUpper.isUpper) (by decide +kernel)
    (toNat_lt_of_isAlphanum (isAlphanum_of_isSmall w.first_isSmall))
  simpa [w.firstLower] using all

theorem capitalize_text : capitalize w.text = w.capital := by
  rw [text, capitalize, upperChar_of_isAlphanum (isAlphanum_of_isSmall w.first_isSmall), List.singleton_append,
    capital]

theorem isAlphanum_of_mem_capital : ∀ c ∈ w.capital, c.isAlphanum = true := by
  refine List.forall_mem_cons.2 ⟨?_, fun c hc => isAlphanum_of_isSmall (w.othersSmall c hc)⟩
  unfold Char.isAlphanum Char.isAlpha
  simp [w.isUpper_toUpper_first]

theorem map_toLower_text : w.text.map Char.toLower = w.text :=
  (List.map_congr_left fun c hc => toLower_of_isSmall (w.isSmall_of_mem_text c hc)).trans (List.map_id _)

theorem map_toLower_capital : w.capital.map Char.toLower = w.text := by
  have hfirst : w.first.toUpper.toLower = w.first := by
    have all := of_ascii (q := fun c => !isSmall c || c.toUpper.toLower == c) (by decide +kernel)
      (toNat_lt_of_isAlphanum (isAlphanum_of_isSmall w.first_isSmall))
    simpa [w.first_isSmall] using all
  have htext := w.map_toLower_text
  rw [text, List.map_cons, List.cons.injEq] at htext
  rw [capital, List.map_cons, hfirst, htext.2, text]

/-- The name that words are joined to by hyphens. -/
def kebab : List Char :=
  ['-'].intercalate (ws.map text)

theorem kebab_cons : kebab (w :: ws) = w.text ++ ws.flatMap fun v => '-' :: v.text := by
  induction ws generalizing w with
  | nil => simp [kebab]
  | cons v ws ih =>
    rw [kebab, List.map_cons, List.intercalate_cons_of_ne_nil (by simp), ← kebab, ih, List.flatMap_cons]
    simp

theorem words_flatMap : words (ws.flatMap fun v => '-' :: v.text) = ws.map text := by
  have hhyphen : isWordPart '-' = false := by decide
  induction ws with
  | nil => rfl
  | cons v ws ih =>
    have hs : ∀ c ∈ (ws.flatMap fun v => '-' :: v.text).head?, isWordPart c = false := by
      cases ws with
      | nil => simp
      | cons u ws => simp [hhyphen]
    rw [List.flatMap_cons, List.cons_append, words_cons_of_not_part hhyphen,
      words_append v.text_ne_nil v.isWordPart_of_mem_text hs, ih, List.map_cons]

/-- In camel case the words are joined by capitals. -/
theorem camelCase_kebab : camelCase (kebab (w :: ws)) = w.text ++ ws.flatMap capital := by
  have hwords : words (kebab (w :: ws)) = (w :: ws).map text := by
    have hmark := words_flatMap (w :: ws)
    rw [List.flatMap_cons, List.cons_append, words_cons_of_not_part (by decide)] at hmark
    rw [kebab_cons, hmark]
  have hcapitals : (ws.map text).flatMap capitalize = ws.flatMap capital := by
    rw [List.flatMap_map]
    exact congrArg (ws.flatMap ·) (funext capitalize_text)
  have hfirst : lowerChar w.first.toUpper = [w.first] := by
    have halnum := isAlphanum_of_isSmall w.first_isSmall
    rw [lowerChar_toUpper_of_isAlphanum halnum, toLower_of_isSmall w.first_isSmall]
  rw [camelCase, studlyCase, hwords, List.map_cons, List.flatMap_cons, hcapitals, capitalize_text, capital,
    List.cons_append, uncapitalize, hfirst]
  rfl

/-- A hyphen is put in front of each capital. -/
theorem splitCapitals_flatMap (hne : word ≠ []) (small : ∀ c ∈ word, isSmall c = true) :
    splitCapitals (word ++ ws.flatMap capital) = word ++ ws.flatMap fun v => '-' :: v.capital := by
  induction ws generalizing word with
  | nil =>
    have hsmall : splitCapitals word = word :=
      splitCapitals_eq_self fun c hc => isUpper_of_isSmall (small c hc)
    simpa using hsmall
  | cons v ws ih =>
    have hcapital : isSmall v.first.toUpper = false := by
      cases hsmall : isSmall v.first.toUpper with
      | false => rfl
      | true => rw [← v.isUpper_toUpper_first, isUpper_of_isSmall hsmall]
    rw [List.flatMap_cons, List.flatMap_cons, capital, List.cons_append,
      splitCapitals_append_cons hne small v.isUpper_toUpper_first, splitCapitals_cons_of_not_small hcapital,
      ih v.others_ne_nil v.othersSmall]
    rfl

variable {f : NameWord → List Char}

/-- Hyphens between words are kept. -/
theorem hyphenateRuns_flatMap (hne : ∀ v, f v ≠ []) (parts : ∀ v, ∀ c ∈ f v, isWordPart c = true) :
    hyphenateRuns isSeparator (ws.flatMap fun v => '-' :: f v) = ws.flatMap fun v => '-' :: f v := by
  induction ws with
  | nil => rfl
  | cons v ws ih =>
    have hv (s : List Char) : hyphenateRuns isSeparator ('-' :: (f v ++ s)) =
        '-' :: (f v ++ hyphenateRuns isSeparator s) := by
      obtain ⟨c, word, hword⟩ := List.exists_cons_of_ne_nil (hne v)
      rw [← hyphenateRuns_append (fun d hd => (isWordPart_iff.1 (parts v d hd)).1) s, hword, List.cons_append,
        hyphenateRuns_hyphen_cons (isWordPart_iff.1 (parts v c (by simp [hword]))).1]
    rw [List.flatMap_cons, List.cons_append, hv, ih]

/-- What kebab case makes of words behind hyphens: they become small. -/
theorem lower_hyphenateRuns (hne : ∀ v, f v ≠ []) (chars : ∀ v, ∀ c ∈ f v, c.isAlphanum = true) :
    lower (hyphenateRuns isSeparator (hyphenateRuns isBlank (w.text ++ ws.flatMap fun v => '-' :: f v))) =
      w.text ++ ws.flatMap fun v => '-' :: (f v).map Char.toLower := by
  have hchars : ∀ c ∈ w.text ++ ws.flatMap (fun v => '-' :: f v), isTagChar c = true := by
    intro c hc
    rcases List.mem_append.1 hc with hc | hc
    · simp [isTagChar, isAlphanum_of_isSmall (w.isSmall_of_mem_text c hc)]
    · obtain ⟨v, -, hc⟩ := List.mem_flatMap.1 hc
      rcases List.mem_cons.1 hc with rfl | hc
      · decide
      · simp [isTagChar, chars v c hc]
  have hseparators : ∀ c ∈ w.text, isSeparator c = false := fun c hc =>
    (isWordPart_iff.1 (w.isWordPart_of_mem_text c hc)).1
  have hparts : ∀ v, ∀ c ∈ f v, isWordPart c = true := fun v c hc => isWordPart_of_isAlphanum (chars v c hc)
  rw [hyphenateRuns_eq_self fun c hc => isBlank_of_isTagChar (hchars c hc), hyphenateRuns_append hseparators,
    hyphenateRuns_flatMap ws hne hparts, lower_eq_map fun c hc => toNat_lt_of_isTagChar (hchars c hc),
    List.map_append, w.map_toLower_text, List.map_flatMap]
  rfl

/-- The characters of a name in kebab case. -/
theorem of_mem_kebab {c : Char} (h : c ∈ kebab ws) : isSmall c = true ∨ c = '-' := by
  cases ws with
  | nil => cases h
  | cons w ws =>
    rw [kebab_cons] at h
    rcases List.mem_append.1 h with hc | hc
    · exact .inl (w.isSmall_of_mem_text c hc)
    · obtain ⟨v, -, hc⟩ := List.mem_flatMap.1 hc
      exact (List.mem_cons.1 hc).symm.imp_left (v.isSmall_of_mem_text c)

/-- A name in kebab case stays as it is. -/
theorem kebabCase_kebab : kebabCase (kebab (w :: ws)) = kebab (w :: ws) := by
  have hsmall : ∀ c ∈ kebab (w :: ws), c.isUpper = false := by
    intro c hc
    rcases of_mem_kebab _ hc with hc | rfl
    · exact isUpper_of_isSmall hc
    · decide
  rw [kebabCase, splitCapitals_eq_self hsmall, kebab_cons,
    lower_hyphenateRuns w ws text_ne_nil fun v c hc => isAlphanum_of_isSmall (v.isSmall_of_mem_text c hc)]
  simp only [map_toLower_text]

/-- Kebab case finds the words that camel case joined. -/
theorem kebabCase_camelCase_kebab : kebabCase (camelCase (kebab (w :: ws))) = kebab (w :: ws) := by
  rw [kebabCase, camelCase_kebab, splitCapitals_flatMap ws w.text_ne_nil w.isSmall_of_mem_text,
    lower_hyphenateRuns w ws (f := capital) (fun v => List.cons_ne_nil _ _) isAlphanum_of_mem_capital, kebab_cons]
  simp only [map_toLower_capital]

end NameWord

end ComponentTags.Text
