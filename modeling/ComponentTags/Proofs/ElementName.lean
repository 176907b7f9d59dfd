import ComponentTags.Component
import ComponentTags.Markup.ElementName
import ComponentTags.Attribute

/-!
# Names of elements

What the characters of tags, of attribute names and of white space have to do with each other, and
when a reader that looks for one name accepts another: never, as long as the name it meets is complete.
-/

namespace ComponentTags

open Text (isBlank isInlineBlank isWord)

/-- A fact about the ASCII characters, checked one by one. -/
theorem of_ascii {q : Char → Bool} (all : ∀ n < 128, q (Char.ofNat n) = true) {c : Char}
    (ascii : c.toNat < 128) : q c = true := by
  have hc := all c.toNat ascii
  rwa [Char.ofNat_toNat] at hc

theorem toNat_lt_of_isTagChar {c : Char} (h : isTagChar c = true) : c.toNat < 128 := by
  unfold isTagChar Char.isAlphanum Char.isAlpha Char.isUpper Char.isLower Char.isDigit at h
  simp only [Bool.or_eq_true, Bool.and_eq_true, decide_eq_true_eq, beq_iff_eq,
    UInt32.le_iff_toNat_le, ge_iff_le] at h
  have hval : c.toNat = c.val.toNat := rfl
  have hupper : 'Z'.val.toNat = 90 := rfl
  have hlower : 'z'.val.toNat = 122 := rfl
  have hdigit : '9'.val.toNat = 57 := rfl
  rcases h with (((((h | h) | h) | h) | h) | h) | h
  · omega
  · omega
  · omega
  all_goals subst h; decide

/-- Tag characters continue a name, so a name in front of one is not complete. -/
theorem continuesName_of_isTagChar {c : Char} (h : isTagChar c = true) :
    Markup.continuesName c = true := by
  have all := of_ascii (q := fun c => !isTagChar c || Markup.continuesName c) (by decide +kernel)
    (toNat_lt_of_isTagChar h)
  simpa [h] using all

theorem isBlank_of_isTagChar {c : Char} (h : isTagChar c = true) : isBlank c = false := by
  have all := of_ascii (q := fun c => !isTagChar c || !isBlank c) (by decide +kernel)
    (toNat_lt_of_isTagChar h)
  simpa [h] using all

/-- No blank character is part of a word, neither in ASCII nor beyond. -/
theorem isWord_of_isBlank {c : Char} (h : isBlank c = true) : isWord c = false := by
  have code : c.toNat ∈ Text.blankRanges.flatMap fun r => List.range' r.1 (r.2 + 1 - r.1) := by
    simp only [isBlank, Text.Ranges.contains, List.any_eq_true, Bool.and_eq_true,
      decide_eq_true_eq] at h
    obtain ⟨r, hr, hlow, hhigh⟩ := h
    exact List.mem_flatMap.2 ⟨r, hr, List.mem_range'_1.2 ⟨hlow, by omega⟩⟩
  have all : ∀ n ∈ Text.blankRanges.flatMap fun r => List.range' r.1 (r.2 + 1 - r.1),
      isWord (Char.ofNat n) = false := by decide +kernel
  have hc := all _ code
  rwa [Char.ofNat_toNat] at hc

theorem isInlineBlank_of_not_isBlank {c : Char} (h : isBlank c = false) :
    isInlineBlank c = false := by
  simp [isInlineBlank, h]

theorem continuesName_of_isBlank {c : Char} (h : isBlank c = true) :
    Markup.continuesName c = false := by
  have hword := isWord_of_isBlank h
  have other {d : Char} (hd : isBlank d = false) : (c == d) = false := by
    rw [beq_eq_false_iff_ne]
    rintro rfl
    rw [h] at hd
    cases hd
  simp [Markup.continuesName, hword, other (d := ':') (by decide), other (d := '.') (by decide),
    other (d := '-') (by decide)]

/-- The name of an element: a tag behind a prefix, each of which may end in a line feed. -/
structure IsElementName (name : List Char) : Prop where
  ne_nil : name ≠ []
  chars : ∀ c ∈ name, isTagChar c = true ∨ c = '\n'

/-- The name of an element that holds no line feed. -/
structure IsPlainName (name : List Char) : Prop where
  ne_nil : name ≠ []
  chars : ∀ c ∈ name, isTagChar c = true

/-- The name of an element with a character of tags in it. -/
structure IsTagName (name : List Char) : Prop extends IsElementName name where
  tagged : ∃ c ∈ name, isTagChar c = true

theorem IsPlainName.toElementName {name : List Char} (h : IsPlainName name) : IsElementName name :=
  ⟨h.ne_nil, fun c hc => .inl (h.chars c hc)⟩

theorem IsPlainName.toTagName {name : List Char} (h : IsPlainName name) : IsTagName name where
  toIsElementName := h.toElementName
  tagged := ⟨name.head h.ne_nil, List.head_mem h.ne_nil, h.chars _ (List.head_mem h.ne_nil)⟩

theorem IsElementName.toPlainName {name : List Char} (h : IsElementName name) (feedless : '\n' ∉ name) :
    IsPlainName name := by
  refine ⟨h.ne_nil, fun c hc => (h.chars c hc).resolve_right ?_⟩
  rintro rfl
  exact feedless hc

theorem slot_isPlainName : IsPlainName "slot".toList :=
  ⟨by decide, List.all_eq_true.1 (by decide)⟩

theorem IsElementName.not_mem {name : List Char} {c : Char} (h : IsElementName name)
    (other : isTagChar c = false) (notFeed : c ≠ '\n') : c ∉ name := by
  intro hc
  rcases h.chars c hc with htag | hfeed
  · rw [other] at htag
    cases htag
  · exact notFeed hfeed

namespace Markup

variable {blank : Char → Bool} {name other rest r : List Char}

/-- White space at the start of a text ends in a name that is not all white space. -/
theorem takeWhile_append_of_exists (hname : ∃ c ∈ name, blank c = false) (rest : List Char) :
    (name ++ rest).takeWhile blank = name.takeWhile blank := by
  rw [List.takeWhile_append, if_neg]
  intro hlength
  obtain ⟨c, hc, hblank⟩ := hname
  have hall : name.takeWhile blank = name := (List.takeWhile_prefix blank).eq_of_length hlength
  rw [← hall] at hc
  have htaken := List.all_eq_true.1 List.all_takeWhile c hc
  rw [hblank] at htaken
  cases htaken

/-- A name that is not all white space is found where it stands, and not only behind its own first
characters. -/
theorem afterName_self (hname : ∃ c ∈ name, blank c = false) :
    afterName blank name (name ++ rest) = some rest := by
  have found : Text.afterLiteral name (name ++ rest) = some rest :=
    Text.afterLiteral_eq_some_iff.2 rfl
  cases hwhole : name ++ rest with
  | nil =>
    rw [hwhole] at found
    exact found
  | cons c s =>
    rw [hwhole] at found
    rw [afterName, found]
    split
    · rename_i hc
      have later : afterName blank name s = none := by
        cases h : afterName blank name s with
        | none => rfl
        | some r =>
          obtain ⟨gap, hs, hall⟩ := eq_append_of_afterName h
          have taken := takeWhile_append_of_exists hname rest
          rw [hwhole, List.takeWhile_cons_of_pos hc, hs, List.append_assoc,
            List.takeWhile_append_of_pos (List.all_eq_true.1 hall),
            takeWhile_append_of_exists hname] at taken
          have hlength := congrArg List.length taken
          simp only [List.length_cons, List.length_append] at hlength
          omega
      rw [later]
    · rfl

/-- At a character that neither is blank nor starts the name, the name is not found. -/
theorem afterName_cons_of_ne {c : Char} (hblank : blank c = false) (hname : name ≠ [])
    (hhead : c ∉ name) : afterName blank name (c :: r) = none := by
  cases name with
  | nil => exact absurd rfl hname
  | cons d name =>
    rw [List.mem_cons, not_or] at hhead
    simp [afterName, hblank, Text.afterLiteral, Ne.symm hhead.1]

/-- Where another complete name stands, the name is at most found as its proper beginning. -/
theorem endsName_of_afterName (hname : IsPlainName name) (hother : IsPlainName other)
    (hne : name ≠ other) (hblank : ∀ c, isTagChar c = true → blank c = false)
    (hrest : endsName rest = true) (h : afterName blank name (other ++ rest) = some r) :
    ∃ c s, r = c :: s ∧ isTagChar c = true := by
  obtain ⟨gap, hs, hall⟩ := eq_append_of_afterName h
  have hgap : gap = [] := by
    cases gap with
    | nil => rfl
    | cons c gap =>
      cases other with
      | nil => exact absurd rfl hother.ne_nil
      | cons d other =>
        have hcd : d = c := (List.cons.inj hs).1
        have hd := hblank d (hother.chars d (by simp))
        rw [hcd] at hd
        simp [hd] at hall
  rw [hgap, List.nil_append] at hs
  rcases List.append_eq_append_iff.1 hs with ⟨more, hmore, hafter⟩ | ⟨more, hmore, hafter⟩
  · -- the name reaches into what follows the other one
    cases more with
    | nil => exact absurd (by simpa using hmore) hne
    | cons c more =>
      have hc : isTagChar c = true := hname.chars c (by simp [hmore])
      rw [hafter, List.cons_append, endsName, continuesName_of_isTagChar hc] at hrest
      cases hrest
  · cases more with
    | nil => exact absurd (by simpa using hmore.symm) hne
    | cons c more => exact ⟨c, more ++ rest, hafter, hother.chars c (by simp [hmore])⟩

theorem isTagChar_not_inlineBlank (c : Char) (h : isTagChar c = true) : isInlineBlank c = false :=
  isInlineBlank_of_not_isBlank (isBlank_of_isTagChar h)

/-- The name of a tag is found where it stands. -/
theorem afterName_tagName (hname : IsTagName name) (hblank : ∀ c, isTagChar c = true → blank c = false) :
    afterName blank name (name ++ rest) = some rest := by
  obtain ⟨c, hc, htag⟩ := hname.tagged
  exact afterName_self ⟨c, hc, hblank c htag⟩

end Markup

end ComponentTags
