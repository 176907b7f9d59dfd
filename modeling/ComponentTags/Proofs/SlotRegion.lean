import ComponentTags.Proofs.QuoteReading
import ComponentTags.Proofs.SlotReading
import ComponentTags.Proofs.WrittenTags

/-!
# Slot regions

The region of a slot runs from the `<` of its opening tag to the `>` of the first closing slot tag behind it.
Its header ends at the first `>`, and in the header stands the name, between two equal quotes that it does not
hold. Every slot that is found has such a region, and where the header of a region stands in front of a closing
slot tag, a slot is found.
-/

namespace ComponentTags.Markup

open Text (isBlank)

variable {s rest name contents : List Char} {last : Char}

/-! ## Marks -/

/-- The beginning of an opening slot tag, with white space in front of its name. -/
def IsSlotMark (s : List Char) : Prop :=
  ∃ gap, gap.all isBlank = true ∧ s = '<' :: (gap ++ "slot".toList)

/-- A closing slot tag, with white space between its parts. -/
def IsSlotEnd (s : List Char) : Prop :=
  ∃ gap middle last, gap.all isBlank = true ∧ middle.all isBlank = true ∧ last.all isBlank = true ∧
    s = '<' :: (gap ++ '/' :: (middle ++ "slot".toList ++ (last ++ ['>'])))

theorem IsSlotMark.not_mem (h : IsSlotMark s) {c : Char} (hc : c ∉ '<' :: "slot".toList)
    (hblank : isBlank c = false) : c ∉ s := by
  obtain ⟨gap, hgap, rfl⟩ := h
  intro hmem
  rcases List.mem_cons.1 hmem with rfl | hmem
  · exact hc (by simp)
  · rcases List.mem_append.1 hmem with hmem | hmem
    · rw [List.all_eq_true.1 hgap c hmem] at hblank
      cases hblank
    · exact hc (List.mem_cons_of_mem _ hmem)

theorem dropWhile_append_cons_of_all {gap : List Char} {c : Char} (hgap : gap.all isBlank = true)
    (hc : isBlank c = false) : (gap ++ c :: s).dropWhile isBlank = c :: s := by
  rw [List.dropWhile_append_of_pos (List.all_eq_true.1 hgap), List.dropWhile_cons_of_neg (by simp [hc])]

/-- A slot is closed exactly by a closing slot tag. -/
theorem slotEnd?_iff : slotEnd? s = some rest ↔ ∃ e, IsSlotEnd e ∧ s = e ++ rest := by
  constructor
  · intro h
    obtain ⟨gap, middle, last, rfl, hgap, hmiddle, hlast⟩ := slotEnd?_eq_some h
    exact ⟨_, ⟨gap, middle, last, hgap, hmiddle, hlast, rfl⟩, by simp⟩
  · rintro ⟨e, ⟨gap, middle, last, hgap, hmiddle, hlast, rfl⟩, rfl⟩
    have hname (r : List Char) :
        Text.afterLiteral "slot".toList ((middle ++ ("slot".toList ++ r)).dropWhile isBlank) = some r := by
      have hstart := dropWhile_append_cons_of_all (s := "lot".toList ++ r) (c := 's') hmiddle (by decide)
      exact Text.afterLiteral_eq_some_iff.2 hstart
    simp only [List.cons_append, List.append_assoc, slotEnd?, List.nil_append]
    rw [dropWhile_append_cons_of_all hgap (by decide)]
    simp only [hname]
    rw [dropWhile_append_cons_of_all hlast (by decide)]
    rfl

theorem slotContents?_isSome {e : List Char} (h : IsSlotEnd e) (u rest : List Char) :
    (slotContents? (u ++ (e ++ rest))).isSome := by
  have hend : slotEnd? (e ++ rest) = some rest := slotEnd?_iff.2 ⟨e, h, rfl⟩
  induction u with
  | nil =>
    rw [List.nil_append, slotContents?.eq_def, hend]
    rfl
  | cons c u ih =>
    rw [List.cons_append, slotContents?.eq_def]
    cases slotEnd? (c :: (u ++ (e ++ rest))) with
    | some _ => rfl
    | none => simpa using ih

/-- No closing slot tag starts in the contents of a slot. -/
theorem skips_of_slotContents? (h : slotContents? s = some (contents, rest)) :
    ∃ closer, IsSlotEnd closer ∧ s = contents ++ (closer ++ rest) ∧
      Skips slotEnd? contents (closer ++ rest) := by
  induction s generalizing contents with
  | nil => cases h
  | cons c s ih =>
    unfold slotContents? at h
    split at h
    · rename_i r hr
      cases h
      obtain ⟨e, he, hs⟩ := slotEnd?_iff.1 hr
      exact ⟨e, he, hs, Skips.nil⟩
    · rename_i hnone
      obtain ⟨⟨inner, r⟩, hinner, heq⟩ := Option.map_eq_some_iff.1 h
      cases heq
      obtain ⟨closer, hcloser, rfl, hskips⟩ := ih hinner
      exact ⟨closer, hcloser, rfl, Skips.cons_iff.2 ⟨hnone, hskips⟩⟩

/-! ## Names -/

theorem nameValue?_iff :
    nameValue? s = some name ↔
      ∃ quote back, (quote = '"' ∨ quote = '\'') ∧ quote ∉ name ∧
        s = "name=".toList ++ quote :: (name ++ quote :: back) := by
  constructor
  · intro h
    unfold nameValue? at h
    split at h
    · rename_i r hr
      split at h
      · rename_i c value
        split at h
        · rename_i hc
          obtain ⟨⟨inner, back⟩, hclose, heq⟩ := Option.map_eq_some_iff.1 h
          cases heq
          obtain ⟨rfl, hquote⟩ := Attribute.closeQuote?_eq_some hclose
          exact ⟨c, back, by simpa using hc, hquote, Text.afterLiteral_eq_some_iff.1 hr⟩
        · cases h
      · cases h
    · cases h
  · rintro ⟨quote, back, hquote, hname, rfl⟩
    have hafter : Text.afterLiteral "name=".toList ("name=".toList ++ quote :: (name ++ quote :: back)) =
        some (quote :: (name ++ quote :: back)) := Text.afterLiteral_eq_some_iff.2 rfl
    rw [nameValue?, hafter]
    simp [hquote, Attribute.closeQuote?_append hname]

/-- The name stands behind a character that continues no word. -/
theorem exists_of_slotName? (h : slotName? last s = some name) :
    ∃ front quote back, Attribute.isPlainNameChar (front.getLast?.getD last) = false ∧
      (quote = '"' ∨ quote = '\'') ∧ quote ∉ name ∧
      s = front ++ ("name=".toList ++ quote :: (name ++ quote :: back)) := by
  induction s generalizing last with
  | nil => cases h
  | cons c s ih =>
    unfold slotName? at h
    split at h
    · rename_i found hfound
      cases h
      split at hfound
      · cases hfound
      · rename_i hlast
        obtain ⟨quote, back, hquote, hname, hs⟩ := nameValue?_iff.1 hfound
        exact ⟨[], quote, back, by simpa using hlast, hquote, hname, hs⟩
    · obtain ⟨front, quote, back, hlast, hquote, hname, rfl⟩ := ih h
      exact ⟨c :: front, quote, back, by rwa [List.getLast?_cons], hquote, hname, rfl⟩

theorem slotName?_isSome {front : List Char} {quote : Char} (back : List Char)
    (hlast : Attribute.isPlainNameChar (front.getLast?.getD last) = false)
    (hquote : quote = '"' ∨ quote = '\'') (hname : quote ∉ name) :
    (slotName? last (front ++ ("name=".toList ++ quote :: (name ++ quote :: back)))).isSome := by
  induction front generalizing last with
  | nil =>
    have hvalue : nameValue? ("name=".toList ++ quote :: (name ++ quote :: back)) = some name :=
      nameValue?_iff.2 ⟨quote, back, hquote, hname, rfl⟩
    have hplain : ¬ Attribute.isPlainNameChar last = true := by
      rw [Bool.not_eq_true]
      exact hlast
    rw [List.nil_append]
    generalize hwhole : "name=".toList ++ quote :: (name ++ quote :: back) = whole at hvalue ⊢
    cases whole with
    | nil => cases hwhole
    | cons c r =>
      rw [slotName?, if_neg hplain, hvalue]
      rfl
  | cons c front ih =>
    rw [List.cons_append, slotName?]
    split
    · rfl
    · rw [List.getLast?_cons] at hlast
      exact ih hlast

/-! ## Headers and regions -/

/-- The opening tag of a slot: the beginning, what is in front of the name, the name between its quotes, what
is behind it, and a `>`. -/
structure SlotHeader where
  mark : List Char
  front : List Char
  quote : Char
  name : List Char
  back : List Char
  isMark : IsSlotMark mark
  ends : endsName front = true
  apart : Attribute.isPlainNameChar (front.getLast?.getD 't') = false
  isQuote : quote = '"' ∨ quote = '\''
  unquoted : quote ∉ name
  unended : '>' ∉ front ++ name ++ back

namespace SlotHeader

/-- What stands between the beginning and the `>`. -/
def inner (h : SlotHeader) : List Char :=
  h.front ++ ("name=".toList ++ h.quote :: (h.name ++ h.quote :: h.back))

def text (h : SlotHeader) : List Char :=
  h.mark ++ (h.inner ++ ['>'])

end SlotHeader

/-- A header, the contents and a closing slot tag, which is the first one behind the header. -/
structure SlotRegion extends SlotHeader where
  contents : List Char
  closer : List Char
  isEnd : IsSlotEnd closer
  nearest : ∀ u e v, IsSlotEnd e → contents ++ closer = u ++ (e ++ v) → contents.length ≤ u.length

namespace SlotRegion

/-- The whole region. -/
def region (r : SlotRegion) : List Char :=
  r.text ++ (r.contents ++ r.closer)

/-- The slot that the region stands for. -/
def found (r : SlotRegion) : FoundSlot :=
  ⟨r.name, r.contents⟩

end SlotRegion

namespace SlotHeader

theorem front_ne_nil (h : SlotHeader) : h.front ≠ [] := by
  intro hnil
  have hapart := h.apart
  rw [hnil] at hapart
  exact absurd hapart (by decide)

theorem not_mem_inner (h : SlotHeader) : '>' ∉ h.inner := by
  have hunended := h.unended
  have hquote : '>' ≠ h.quote := by
    rcases h.isQuote with heq | heq <;> rw [heq] <;> decide
  simp only [List.mem_append, not_or] at hunended
  simp [inner, hunended, hquote]

theorem not_mem_mark (h : SlotHeader) : '>' ∉ h.mark := h.isMark.not_mem (by decide) (by decide)

/-- A slot is found where a closing slot tag stands behind a header. -/
theorem slot?_isSome (h : SlotHeader) {e : List Char} (hend : IsSlotEnd e) (u rest : List Char) :
    (slot? (h.text ++ (u ++ (e ++ rest)))).isSome := by
  obtain ⟨gap, hgap, hmark⟩ := h.isMark
  obtain ⟨name, hread⟩ := Option.isSome_iff_exists.1
    (slotName?_isSome h.back h.apart h.isQuote h.unquoted)
  obtain ⟨⟨contents, behind⟩, hcontents⟩ := Option.isSome_iff_exists.1
    (slotContents?_isSome hend u rest)
  have hname : afterName isBlank "slot".toList
      (gap ++ ("slot".toList ++ (h.inner ++ '>' :: (u ++ (e ++ rest))))) =
      some (h.inner ++ '>' :: (u ++ (e ++ rest))) :=
    afterName_append_of_blank (List.all_eq_true.1 hgap) (afterName_self ⟨'s', by decide, by decide⟩)
  have hends : endsName (h.inner ++ '>' :: (u ++ (e ++ rest))) = true := by
    have hne := h.front_ne_nil
    have hends := h.ends
    unfold inner
    cases hfront : h.front with
    | nil => exact absurd hfront hne
    | cons c front =>
      rw [hfront] at hends
      exact hends
  have hfound : slot? (h.text ++ (u ++ (e ++ rest))) = some (⟨name, contents⟩, behind) :=
    slot?_eq_some_iff.2 ⟨_, _, h.inner, _, by simp [text, hmark], hname, hends,
      Attribute.closeQuote?_append h.not_mem_inner, hread, hcontents⟩
  rw [hfound]
  rfl

end SlotHeader

/-- What is found is a region. -/
theorem exists_region_of_slot? {found : FoundSlot} (h : slot? s = some (found, rest)) :
    ∃ r : SlotRegion, s = r.region ++ rest ∧ found = r.found := by
  obtain ⟨t, after, header, body, rfl, hafter, hends, hsplit, hname, hcontents⟩ := slot?_eq_some_iff.1 h
  obtain ⟨gap, rfl, hgap⟩ := eq_append_of_afterName hafter
  obtain ⟨rfl, hheader⟩ := Attribute.closeQuote?_eq_some hsplit
  obtain ⟨front, quote, back, hapart, hquote, hunquoted, rfl⟩ := exists_of_slotName? hname
  obtain ⟨closer, hcloser, rfl, hskips⟩ := skips_of_slotContents? hcontents
  have hfront : endsName front = true := by
    cases front with
    | nil => rfl
    | cons c front => exact hends
  have hunended : '>' ∉ front ++ found.name ++ back := by
    simp only [List.mem_append, List.mem_cons, not_or] at hheader
    simp [hheader]
  have hnearest : ∀ u e v, IsSlotEnd e → found.contents ++ closer = u ++ (e ++ v) →
      found.contents.length ≤ u.length := by
    intro u e v he heq
    by_contra hlt
    -- a closing slot tag would start within the contents
    rcases List.append_eq_append_iff.1 heq with ⟨more, hu, -⟩ | ⟨more, hcontents', hmore⟩
    · exact hlt (by rw [hu, List.length_append]; omega)
    · have hne : more ≠ [] := by
        rintro rfl
        exact hlt (by simp [hcontents'])
      have hnone := hskips more hne ⟨u, hcontents'.symm⟩
      rw [← List.append_assoc, ← hmore, List.append_assoc] at hnone
      rw [slotEnd?_iff.2 ⟨e, he, rfl⟩] at hnone
      cases hnone
  exact ⟨{ mark := '<' :: (gap ++ "slot".toList), front, quote, name := found.name, back,
           isMark := ⟨gap, hgap, rfl⟩, ends := hfront, apart := hapart, isQuote := hquote,
           unquoted := hunquoted, unended := hunended, contents := found.contents, closer,
           isEnd := hcloser, nearest := hnearest },
    by simp [SlotRegion.region, SlotHeader.text, SlotHeader.inner], rfl⟩

namespace SlotRegion

/-- The contents hold no closing slot tag. -/
theorem not_infix_contents (r : SlotRegion) {e : List Char} (he : IsSlotEnd e) : ¬ e <:+: r.contents := by
  rintro ⟨u, v, heq⟩
  have hlength := r.nearest u e (v ++ r.closer) he (by rw [← heq]; simp)
  obtain ⟨gap, middle, last, -, -, -, rfl⟩ := he
  have htotal := congrArg List.length heq
  simp only [List.length_append, List.length_cons] at htotal
  omega

end SlotRegion

end ComponentTags.Markup
