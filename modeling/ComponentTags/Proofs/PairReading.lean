import ComponentTags.Proofs.TagEnd
import ComponentTags.Proofs.WrittenTags

/-!
# Reading an empty pair

What the patterns find in a self-closing element and in an opening tag with the closing tag at once behind
it. The pair holds no self-closing element, and a slot only if it is one itself.
-/

namespace ComponentTags

open Text (isBlank isInlineBlank)

namespace Markup

variable {name s u w rest : List Char} {attributes : List TagAttribute}

/-! ## The tags of a pair -/

/-- A self-closing element. -/
def voidText (name : List Char) (attributes : List TagAttribute) : List Char :=
  '<' :: (name ++ (TagAttribute.listText attributes ++ " />".toList))

/-- An opening tag and the closing tag at once behind it. -/
def pairText (name : List Char) (attributes : List TagAttribute) : List Char :=
  '<' :: (name ++ (TagAttribute.listText attributes ++ ['>'])) ++ '<' :: '/' :: (name ++ ['>'])

theorem tagless_startText (hname : IsElementName name) (attributes : List TagAttribute) :
    '<' ∉ name ++ (TagAttribute.listText attributes ++ ['>']) := by
  have hmem : '<' ∉ name := hname.not_mem (by decide) (by decide)
  simp [hmem, TagAttribute.tagless_listText attributes]

theorem tagless_finishText (hname : IsElementName name) : '<' ∉ '/' :: (name ++ ['>']) := by
  have hmem : '<' ∉ name := hname.not_mem (by decide) (by decide)
  simp [hmem]

/-- In a closing tag an occurrence starts at its `<` or nowhere. -/
theorem absent_finishText {α : Type} {p : Pattern α} (tags : p.ReadsTags) (hname : IsElementName name)
    (hclose : p.match? ('<' :: '/' :: (name ++ ['>'])) = none) :
    p.Absent ('<' :: '/' :: (name ++ ['>'])) := by
  refine Skips.cons_iff.2 ⟨?_, Skips.of_not_mem tags.opens (tagless_finishText hname)⟩
  rw [List.append_nil]
  exact hclose

/-- In a pair an occurrence starts at the `<` of one of the two tags or nowhere. -/
theorem absent_pairText {α : Type} {p : Pattern α} (tags : p.ReadsTags) (hname : IsElementName name)
    (hopen : p.match? (pairText name attributes) = none)
    (hclose : p.match? ('<' :: '/' :: (name ++ ['>'])) = none) : p.Absent (pairText name attributes) := by
  refine Skips.append_iff.2 ⟨?_, absent_finishText tags hname hclose⟩
  refine Skips.cons_iff.2 ⟨?_, Skips.of_not_mem tags.opens (tagless_startText hname attributes)⟩
  rw [List.append_nil]
  exact hopen

/-! ## Slots -/

/-- No slot starts at the last tag of a text. -/
theorem slot?_of_tagless (h : '<' ∉ s) : slot? ('<' :: s) = none := by
  cases hfound : slot? ('<' :: s) with
  | none => rfl
  | some found =>
    obtain ⟨r, after, header, body, heq, hname, -, rfl, -, hcontents⟩ := slot?_eq_some hfound
    have hbody : '<' ∉ body := by
      intro hmem
      have hafter : '<' ∈ header ++ '>' :: body := by simp [hmem]
      have hr := (afterName_suffix hname).subset hafter
      rw [← (List.cons.inj heq).2] at hr
      exact h hr
    rw [slotContents?_of_not_mem hbody] at hcontents
    cases hcontents

theorem slot_absent_of_tagless (h : '<' ∉ s) : slot.Absent ('<' :: s) := by
  refine Skips.cons_iff.2 ⟨?_, Skips.of_not_mem slot_readsTags.opens h⟩
  rw [List.append_nil]
  exact slot?_of_tagless h

/-- If a pair holds a slot, the pair is that slot. -/
theorem exists_slot?_of_count (hname : IsElementName name)
    (h : slot.count (pairText name attributes) ≠ 0) :
    ∃ found rest, slot? (pairText name attributes) = some (found, rest) := by
  cases hfound : slot? (pairText name attributes) with
  | some found => exact ⟨found.1, found.2, rfl⟩
  | none =>
    have habsent := absent_pairText slot_readsTags hname hfound
      (slot?_of_slash (name ++ ['>']))
    exact absurd (Pattern.count_eq_zero_iff.2 habsent) h

theorem strip_blank_slot {middle last : List Char} (hmiddle : middle.all isBlank = true)
    (hlast : last.all isBlank = true) :
    Text.strip (middle ++ "slot".toList ++ last) = "slot".toList := by
  have hfirst : ∀ c ∈ "slot".toList.head?, isBlank c = false := by
    rintro c ⟨⟩
    decide
  have hend : ∀ c ∈ "slot".toList.getLast?, isBlank c = false := by
    rintro c ⟨⟩
    decide
  have hkept := Text.strip_append (by decide) hfirst hend (List.all_eq_true.1 hlast) middle
  have hnone : middle.dropWhile isBlank = [] := by
    rw [← List.append_nil middle, List.dropWhile_append_of_pos (List.all_eq_true.1 hmiddle)]
    rfl
  rw [List.append_assoc, hkept, hnone, List.nil_append]

/-- A pair is a slot only if its name is that of slots, perhaps with line feeds around it. -/
theorem strip_eq_slot_of_count (hname : IsElementName name)
    (h : slot.count (pairText name attributes) ≠ 0) : Text.strip name = "slot".toList := by
  obtain ⟨found, rest, hfound⟩ := exists_slot?_of_count hname h
  obtain ⟨r, after, header, body, heq, hafter, -, rfl, -, hcontents⟩ := slot?_eq_some hfound
  obtain ⟨closer, rfl, hend⟩ := slotContents?_eq_some hcontents
  obtain ⟨gap, middle, last, rfl, hgap, hmiddle, hlast⟩ := slotEnd?_eq_some hend
  -- the slot is closed at the only other `<`
  obtain ⟨before, hbefore⟩ := afterName_suffix hafter
  have hwhole : name ++ (TagAttribute.listText attributes ++ ['>']) ++ '<' :: '/' :: (name ++ ['>']) =
      (before ++ header ++ '>' :: found.contents) ++
        '<' :: (gap ++ '/' :: (middle ++ "slot".toList ++ (last ++ '>' :: rest))) :=
    (List.cons.inj heq).2.trans (by rw [← hbefore]; simp)
  obtain ⟨-, -, hclose⟩ := (List.append_cons_inj_of_notMem (tagless_startText hname attributes)
    (tagless_finishText hname)).1 hwhole
  have hnogap : gap = [] := by
    cases gap with
    | nil => rfl
    | cons c gap =>
      have hc : '/' = c := (List.cons.inj hclose).1
      rw [← hc] at hgap
      exact absurd hgap (by simp [show isBlank '/' = false by decide])
  rw [hnogap, List.nil_append] at hclose
  have hends : name ++ '>' :: [] = (middle ++ "slot".toList ++ last) ++ '>' :: rest := by
    rw [(List.cons.inj hclose).2, List.append_assoc _ last]
  obtain ⟨hslot, -, -⟩ := (List.append_cons_inj_of_notMem
    (hname.not_mem (by decide) (by decide)) List.not_mem_nil).1 hends
  rw [hslot]
  exact strip_blank_slot hmiddle hlast

/-! ## Self-closing elements -/

/-- Every self-closing element holds its end `/>`. -/
theorem selfClosing_absent (h : ¬ ['/', '>'] <:+: s) : (selfClosing name).Absent s := by
  intro t _ hsuffix
  rw [List.append_nil]
  cases hfound : selfClosing? name t with
  | none => exact hfound
  | some found =>
    obtain ⟨r, after, rfl, hname, -, hread⟩ := selfClosing?_eq_some hfound
    obtain ⟨gap, hline, -, -⟩ := (readLine_runsToEnd _).1 hread
    have hend : ['/', '>'] <:+: after.dropWhile isInlineBlank :=
      ⟨found.1 ++ gap, found.2, by rw [hline]; simp⟩
    exact absurd (hend.trans ((List.dropWhile_suffix _).trans ((afterName_suffix hname).trans
      ((List.suffix_cons '<' r).trans hsuffix))).isInfix) h

/-- A tag that does not end in a slash brings in no `/>`. -/
theorem not_within_append_end (hend : '>' ∉ u) (hlast : u.getLast? ≠ some '/')
    (h : ¬ ['/', '>'] <:+: w) : ¬ ['/', '>'] <:+: u ++ '>' :: w := by
  rintro ⟨before, after, heq⟩
  rw [List.append_assoc] at heq
  rcases List.append_eq_append_iff.1 heq with ⟨more, hu, hrest⟩ | ⟨more, -, hrest⟩
  · match more with
    | [] => cases hrest
    | [c] =>
      have hc : '/' = c := (List.cons.inj hrest).1
      exact hlast (by rw [hu, ← hc]; simp)
    | c :: d :: more =>
      have hd : '>' = d := (List.cons.inj (List.cons.inj hrest).2).1
      exact hend (by rw [hu, ← hd]; simp)
  · match more with
    | [] => cases hrest
    | c :: more => exact h ⟨more, after, (List.append_assoc _ _ _).trans (List.cons.inj hrest).2.symm⟩

end Markup

namespace TagAttribute

variable {attributes : List TagAttribute}

theorem exists_text_eq_concat (a : TagAttribute) : ∃ front c, a.text = front ++ [c] ∧ c ≠ '/' := by
  cases hvalue : a.value with
  | none =>
    have hlast := a.nameChars _ (List.getLast_mem a.named)
    refine ⟨a.name.dropLast, a.name.getLast a.named, ?_, Attribute.ne_of_isNameChar (by decide) hlast⟩
    rw [List.dropLast_concat_getLast]
    simp [TagAttribute.text, hvalue]
  | some v => exact ⟨a.name ++ '=' :: '"' :: v, '"', by simp [TagAttribute.text, hvalue], by decide⟩

/-- Attributes do not end in a slash. -/
theorem getLast?_append_listText {u : List Char} (h : u.getLast? ≠ some '/')
    (attributes : List TagAttribute) : (u ++ listText attributes).getLast? ≠ some '/' := by
  induction attributes generalizing u with
  | nil => simpa using h
  | cons a attributes ih =>
    obtain ⟨front, c, htext, hc⟩ := a.exists_text_eq_concat
    have hshape : u ++ listText (a :: attributes) = (u ++ ' ' :: front ++ [c]) ++ listText attributes := by
      simp [htext]
    rw [hshape]
    apply ih
    rw [List.getLast?_concat]
    simpa using hc

/-- Attributes whose names hold no hyphen do not end a tag with one. -/
theorem endsOpenly_of_not_mem (h : ∀ a ∈ attributes, '-' ∉ a.name) : EndsOpenly attributes := by
  intro a ha _ hlast
  exact h a (List.mem_of_getLast? ha) (List.mem_of_getLast? hlast)

end TagAttribute

namespace Markup

variable {name : List Char}

/-- No tag of a pair closes itself. -/
theorem selfClosing_absent_pairText (hname : IsElementName name) (attributes : List TagAttribute) :
    (selfClosing name).Absent (pairText name attributes) := by
  have hend : '>' ∉ name := hname.not_mem (by decide) (by decide)
  have hlast (u : List Char) : (u ++ name).getLast? ≠ some '/' := by
    rw [List.getLast?_append]
    cases hl : name.getLast? with
    | none => exact absurd (List.getLast?_eq_none_iff.1 hl) hname.ne_nil
    | some c =>
      rw [Option.some_or, ne_eq, Option.some.injEq]
      rintro rfl
      exact hname.not_mem (by decide) (by decide) (List.mem_of_getLast? hl)
  have hclose : ¬ ['/', '>'] <:+: '<' :: '/' :: name ++ '>' :: [] :=
    not_within_append_end (by simp [hend]) (hlast ['<', '/']) (by simp)
  have hopen : ¬ ['/', '>'] <:+: '<' :: name ++ TagAttribute.listText attributes ++
      '>' :: ('<' :: '/' :: name ++ '>' :: []) := by
    apply not_within_append_end _ _ hclose
    · simp [hend, TagAttribute.endless_listText attributes]
    · exact TagAttribute.getLast?_append_listText (hlast ['<']) attributes
  apply selfClosing_absent
  simpa [pairText] using hopen

/-! ## Opening tags -/

/-- A name that ends in a hyphen is no opening tag if the tag ends with it. -/
theorem opening?_pairText_of_hyphen (hname : IsTagName name) (hlast : name.getLast? = some '-') :
    opening? name (pairText name []) = none := by
  have hshape : pairText name [] = '<' :: (name ++ '>' :: '<' :: '/' :: (name ++ ['>'])) := by
    simp [pairText]
  have hfound : afterName isBlank name (name ++ '>' :: '<' :: '/' :: (name ++ ['>'])) =
      some ('>' :: '<' :: '/' :: (name ++ ['>'])) :=
    afterName_tagName hname fun c hc => isBlank_of_isTagChar hc
  have hrefused : mayPrecedeEnd (name.getLastD '<') = false := by
    rw [List.getLastD_eq_getLast?, hlast]
    decide
  rw [hshape]
  simp only [opening?, hfound]
  rw [openingRest?, if_pos rfl, hrefused]
  rfl

end Markup

end ComponentTags
