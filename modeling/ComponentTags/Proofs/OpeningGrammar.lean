import ComponentTags.Proofs.AttributeValue
import ComponentTags.Proofs.QuoteReading
import ComponentTags.Proofs.TagEnd
import Mathlib.Computability.Language

/-!
# The grammar of opening tags

An opening tag is given twice: by a grammar, which leaves open how a text is cut into attributes and how far each
repetition goes, and by a reading from left to right that never goes back. Both mean the same. A name ends where
its characters end, a value in quotes at the next equal quote and a bare one at white space or `>`; so an attribute
is followed by white space or by the end of the tag, and there is only one way to read on.
-/

namespace ComponentTags

namespace Markup

open Text (isBlank)
open scoped Computability

variable {p : Char → Bool} {name s u text rest : List Char}

/-! ## The grammar -/

/-- One character of a class. -/
def oneOf (p : Char → Bool) : Language Char := {s | ∃ c, p c = true ∧ s = [c]}

def oneOrMore (l : Language Char) : Language Char := l * l∗

def oneOrNone (l : Language Char) : Language Char := 1 + l

/-- The given character. -/
def only (c : Char) : Language Char := oneOf (· == c)

/-- A run between two equal quotes, which may span lines. -/
def runBetween (quote : Char) : Language Char := only quote * (oneOf (· != quote))∗ * only quote

def valueGrammar : Language Char := runBetween '"' + runBetween '\'' + oneOrMore (oneOf isBareValueChar)

/-- An attribute with the white space in front of it. -/
def attributeGrammar : Language Char :=
  oneOrMore (oneOf isBlank) * oneOrMore (oneOf Attribute.isNameChar) * oneOrNone (only '=' * valueGrammar)

/-- The attribute text of an opening tag. -/
def attributeTextGrammar : Language Char := attributeGrammar∗ * (oneOf isBlank)∗

/-- The grammar allows an opening tag of the name at the start of a text, with this attribute text and with
`rest` behind it. -/
def AllowsOpening (name s text rest : List Char) : Prop :=
  ∃ gap ∈ (oneOf isBlank)∗, text ∈ attributeTextGrammar ∧ s = '<' :: (gap ++ name ++ text ++ '>' :: rest) ∧
    mayPrecedeEnd ((gap ++ name ++ text).getLastD '<') = true

/-! ## What the grammar means -/

theorem mem_only {c : Char} : u ∈ only c ↔ u = [c] := by
  constructor
  · rintro ⟨d, hd, rfl⟩
    rw [beq_iff_eq.1 hd]
  · rintro rfl
    exact ⟨c, by simp, rfl⟩

theorem mem_kstar_oneOf : u ∈ (oneOf p)∗ ↔ ∀ c ∈ u, p c = true := by
  rw [Language.mem_kstar]
  constructor
  · rintro ⟨parts, rfl, hparts⟩ c hc
    obtain ⟨part, hpart, hc⟩ := List.mem_flatten.1 hc
    obtain ⟨d, hd, rfl⟩ := hparts part hpart
    rw [List.mem_singleton.1 hc]
    exact hd
  · intro h
    refine ⟨u.map fun c => [c], (List.flatMap_singleton' u).symm, fun part hpart => ?_⟩
    obtain ⟨c, hc, rfl⟩ := List.mem_map.1 hpart
    exact ⟨c, h c hc, rfl⟩

theorem mem_oneOrMore_oneOf : u ∈ oneOrMore (oneOf p) ↔ u ≠ [] ∧ ∀ c ∈ u, p c = true := by
  rw [oneOrMore, Language.mem_mul]
  constructor
  · rintro ⟨-, ⟨c, hc, rfl⟩, more, hmore, rfl⟩
    exact ⟨List.cons_ne_nil _ _, List.forall_mem_cons.2 ⟨hc, mem_kstar_oneOf.1 hmore⟩⟩
  · rintro ⟨hne, hall⟩
    obtain ⟨c, more, rfl⟩ := List.exists_cons_of_ne_nil hne
    obtain ⟨hc, hmore⟩ := List.forall_mem_cons.1 hall
    exact ⟨[c], ⟨c, hc, rfl⟩, more, mem_kstar_oneOf.2 hmore, rfl⟩

theorem mem_oneOrNone {l : Language Char} : u ∈ oneOrNone l ↔ u = [] ∨ u ∈ l := by
  rw [oneOrNone, Language.mem_add, Language.mem_one]

theorem mem_runBetween {quote : Char} :
    u ∈ runBetween quote ↔ ∃ inner, quote ∉ inner ∧ u = quote :: inner ++ [quote] := by
  have unquoted {inner : List Char} : (∀ c ∈ inner, (c != quote) = true) ↔ quote ∉ inner := by
    simp only [bne_iff_ne]
    exact ⟨fun h hmem => h _ hmem rfl, fun h c hc heq => h (heq ▸ hc)⟩
  simp only [runBetween, Language.mem_mul, mem_only, mem_kstar_oneOf, unquoted]
  constructor
  · rintro ⟨-, ⟨-, rfl, inner, hinner, rfl⟩, -, rfl, rfl⟩
    exact ⟨inner, hinner, rfl⟩
  · rintro ⟨inner, hinner, rfl⟩
    exact ⟨quote :: inner, ⟨[quote], rfl, inner, hinner, rfl⟩, [quote], rfl, rfl⟩

/-- The value of an attribute, in quotes or bare. -/
inductive OpeningValue where
  | quoted (quote : Char) (inner : List Char) (isQuote : quote = '"' ∨ quote = '\'') (unquoted : quote ∉ inner)
  | bare (run : List Char) (nonempty : run ≠ []) (chars : ∀ c ∈ run, isBareValueChar c = true)

namespace OpeningValue

def source : OpeningValue → List Char
  | quoted quote inner _ _ => quote :: inner ++ [quote]
  | bare run _ _ => run

/-- The value without what stands in quotes. -/
def outside : OpeningValue → List Char
  | quoted _ _ _ _ => []
  | bare run _ _ => run

end OpeningValue

/-- An attribute of an opening tag, with the white space in front of it. -/
structure OpeningAttribute where
  gap : List Char
  name : List Char
  value : Option OpeningValue
  spaced : gap ≠ []
  blank : ∀ c ∈ gap, isBlank c = true
  named : name ≠ []
  nameChars : ∀ c ∈ name, Attribute.isNameChar c = true

namespace OpeningAttribute

/-- An equals sign and a value behind a name. -/
def assigned (value : Option (List Char)) : List Char :=
  value.elim [] ('=' :: ·)

/-- The attribute behind its white space. -/
def item (a : OpeningAttribute) : List Char := a.name ++ assigned (a.value.map (·.source))

def source (a : OpeningAttribute) : List Char := a.gap ++ a.item

theorem exists_item_eq_cons (a : OpeningAttribute) : ∃ c s, a.item = c :: s ∧ Attribute.isNameChar c = true := by
  obtain ⟨c, more, hname⟩ := List.exists_cons_of_ne_nil a.named
  exact ⟨c, _, by rw [item, hname]; rfl, a.nameChars c (by simp [hname])⟩

theorem item_of_none {a : OpeningAttribute} (h : a.value = none) : a.item = a.name := by
  simp [item, assigned, h]

theorem item_of_some {a : OpeningAttribute} {v : OpeningValue} (h : a.value = some v) :
    a.item = a.name ++ '=' :: v.source := by
  simp [item, assigned, h]

/-- The attribute without what stands in quotes. -/
def outside (a : OpeningAttribute) : List Char := a.gap ++ a.name ++ assigned (a.value.map (·.outside))

end OpeningAttribute

/-- The text is cut into attributes, each behind white space, and white space at the end. -/
def Cuts (attributes : List OpeningAttribute) (trailing text : List Char) : Prop :=
  (∀ c ∈ trailing, isBlank c = true) ∧ text = attributes.flatMap (·.source) ++ trailing

section

variable {attributes : List OpeningAttribute} {trailing : List Char}

theorem mem_valueGrammar : u ∈ valueGrammar ↔ ∃ v : OpeningValue, u = v.source := by
  simp only [valueGrammar, Language.mem_add, mem_runBetween, mem_oneOrMore_oneOf]
  constructor
  · rintro ((⟨inner, hinner, rfl⟩ | ⟨inner, hinner, rfl⟩) | ⟨hne, hall⟩)
    · exact ⟨.quoted '"' inner (.inl rfl) hinner, rfl⟩
    · exact ⟨.quoted '\'' inner (.inr rfl) hinner, rfl⟩
    · exact ⟨.bare u hne hall, rfl⟩
  · rintro ⟨v, rfl⟩
    cases v with
    | quoted quote inner isQuote unquoted =>
      rcases isQuote with rfl | rfl
      · exact .inl (.inl ⟨inner, unquoted, rfl⟩)
      · exact .inl (.inr ⟨inner, unquoted, rfl⟩)
    | bare run nonempty chars => exact .inr ⟨nonempty, chars⟩

theorem mem_attributeGrammar : u ∈ attributeGrammar ↔ ∃ a : OpeningAttribute, u = a.source := by
  simp only [attributeGrammar, Language.mem_mul, mem_oneOrMore_oneOf, mem_oneOrNone, mem_only, mem_valueGrammar]
  constructor
  · rintro ⟨-, ⟨gap, ⟨spaced, blank⟩, name, ⟨named, nameChars⟩, rfl⟩, -, rfl | ⟨-, rfl, -, ⟨v, rfl⟩, rfl⟩, rfl⟩
    · exact ⟨⟨gap, name, none, spaced, blank, named, nameChars⟩, List.append_assoc _ _ _⟩
    · exact ⟨⟨gap, name, some v, spaced, blank, named, nameChars⟩, List.append_assoc _ _ _⟩
  · rintro ⟨⟨gap, name, value, spaced, blank, named, nameChars⟩, rfl⟩
    refine ⟨gap ++ name, ⟨gap, ⟨spaced, blank⟩, name, ⟨named, nameChars⟩, rfl⟩, _, ?_, List.append_assoc _ _ _⟩
    cases value with
    | none => exact .inl rfl
    | some v => exact .inr ⟨['='], rfl, v.source, ⟨v, rfl⟩, rfl⟩

theorem mem_kstar_attributeGrammar :
    u ∈ attributeGrammar∗ ↔ ∃ attributes : List OpeningAttribute, u = attributes.flatMap (·.source) := by
  rw [Language.mem_kstar]
  constructor
  · rintro ⟨parts, rfl, hparts⟩
    induction parts with
    | nil => exact ⟨[], rfl⟩
    | cons part parts ih =>
      obtain ⟨hpart, hrest⟩ := List.forall_mem_cons.1 hparts
      obtain ⟨a, rfl⟩ := mem_attributeGrammar.1 hpart
      obtain ⟨attributes, hattributes⟩ := ih hrest
      exact ⟨a :: attributes, by rw [List.flatten_cons, hattributes, List.flatMap_cons]⟩
  · rintro ⟨attributes, rfl⟩
    refine ⟨attributes.map (·.source), rfl, fun part hpart => ?_⟩
    obtain ⟨a, -, rfl⟩ := List.mem_map.1 hpart
    exact mem_attributeGrammar.2 ⟨a, rfl⟩

/-- An attribute text is what can be cut into attributes. -/
theorem mem_attributeTextGrammar :
    text ∈ attributeTextGrammar ↔ ∃ attributes trailing, Cuts attributes trailing text := by
  simp only [attributeTextGrammar, Language.mem_mul, mem_kstar_attributeGrammar, mem_kstar_oneOf]
  constructor
  · rintro ⟨-, ⟨attributes, rfl⟩, trailing, htrailing, rfl⟩
    exact ⟨attributes, trailing, htrailing, rfl⟩
  · rintro ⟨attributes, trailing, htrailing, rfl⟩
    exact ⟨_, ⟨attributes, rfl⟩, trailing, htrailing, rfl⟩

/-! ## Outside the values in quotes -/

theorem ne_of_apply {c d : Char} (hc : p c = true) (hd : p d = false) : c ≠ d := by
  rintro rfl
  rw [hd] at hc
  cases hc

theorem OpeningAttribute.not_mem_outside (a : OpeningAttribute) : '>' ∉ a.outside := by
  have hgap : '>' ∉ a.gap := fun hmem => ne_of_apply (a.blank _ hmem) (by decide) rfl
  have hname : '>' ∉ a.name := fun hmem => ne_of_apply (a.nameChars _ hmem) (by decide) rfl
  have hvalue : '>' ∉ assigned (a.value.map (·.outside)) := by
    cases a.value with
    | none => exact List.not_mem_nil
    | some v =>
      cases v with
      | quoted => simp [assigned, OpeningValue.outside]
      | bare run _ chars =>
        have hrun : '>' ∉ run := fun hmem => ne_of_apply (chars _ hmem) (by decide) rfl
        simpa [assigned, OpeningValue.outside] using hrun
  simp [outside, hgap, hname, hvalue]

theorem Cuts.not_mem_outside (h : Cuts attributes trailing text) :
    '>' ∉ attributes.flatMap (·.outside) ++ trailing := by
  rw [List.mem_append, List.mem_flatMap, not_or]
  exact ⟨fun ⟨a, _, ha⟩ => a.not_mem_outside ha, fun hmem => ne_of_apply (h.1 _ hmem) (by decide) rfl⟩

/-! ## Reading attributes -/

/-- What may follow an attribute: white space or the end of the tag. -/
def FollowsAttribute (c : Char) : Prop := isBlank c = true ∨ c = '>'

namespace FollowsAttribute

variable {c : Char}

theorem not_isNameChar (h : FollowsAttribute c) : Attribute.isNameChar c = false := by
  rcases h with h | rfl
  · by_contra hname
    rw [Attribute.isBlank_of_isNameChar (Bool.not_eq_false _ ▸ hname)] at h
    cases h
  · decide

theorem ne_equals (h : FollowsAttribute c) : c ≠ '=' := by
  rintro rfl
  rcases h with h | h
  · exact absurd h (by decide)
  · cases h

theorem not_isBareValueChar (h : FollowsAttribute c) : isBareValueChar c = false := by
  rcases h with h | rfl
  · simp [isBareValueChar, h]
  · decide

end FollowsAttribute

/-- An attribute text with the end of a tag behind it starts with white space or is that end. -/
theorem Cuts.exists_followsAttribute (h : Cuts attributes trailing text) (rest : List Char) :
    ∃ c s, text ++ '>' :: rest = c :: s ∧ FollowsAttribute c := by
  obtain ⟨htrailing, rfl⟩ := h
  cases attributes with
  | nil =>
    cases trailing with
    | nil => exact ⟨'>', rest, rfl, .inr rfl⟩
    | cons c trailing => exact ⟨c, trailing ++ '>' :: rest, rfl, .inl (htrailing c (by simp))⟩
  | cons a attributes =>
    obtain ⟨c, gap, hgap⟩ := List.exists_cons_of_ne_nil a.spaced
    exact ⟨c, _, by rw [List.flatMap_cons, OpeningAttribute.source, hgap]; rfl, .inl (a.blank c (by simp [hgap]))⟩

/-- Behind its first attribute an attribute text goes on with the others. -/
theorem Cuts.exists_behind {a : OpeningAttribute} (h : Cuts (a :: attributes) trailing text) :
    ∃ inner, text = a.source ++ inner ∧ Cuts attributes trailing inner :=
  ⟨_, by rw [h.2, List.flatMap_cons, List.append_assoc], h.1, rfl⟩

/-- A run of characters of a class ends in front of a character of another one. -/
theorem takeWhile_append_of_all {c : Char} (hall : ∀ d ∈ u, p d = true) (hc : p c = false) (s : List Char) :
    (u ++ c :: s).takeWhile p = u ∧ (u ++ c :: s).dropWhile p = c :: s := by
  rw [List.takeWhile_append_of_pos hall, List.dropWhile_append_of_pos hall,
    List.takeWhile_cons_of_neg (by simp [hc]), List.dropWhile_cons_of_neg (by simp [hc]), List.append_nil]
  exact ⟨rfl, rfl⟩

theorem tagValue?_source {c : Char} (v : OpeningValue) (hc : FollowsAttribute c) (s : List Char) :
    tagValue? (v.source ++ c :: s) = some (v.source, c :: s) := by
  cases v with
  | quoted quote inner isQuote unquoted =>
    have hrun : Attribute.quotedRun? (quote :: inner ++ [quote] ++ c :: s) =
        some (quote :: inner ++ [quote], c :: s) := by
      simpa using Attribute.quotedRun?_quoted (s := c :: s) isQuote unquoted
    simp only [tagValue?, OpeningValue.source, hrun]
  | bare run nonempty chars =>
    obtain ⟨d, more, rfl⟩ := List.exists_cons_of_ne_nil nonempty
    have hd : isBareValueChar d = true := chars d (by simp)
    have hrun : Attribute.quotedRun? (d :: more ++ c :: s) = none :=
      Attribute.quotedRun?_cons_of_ne (ne_of_apply hd (by decide)) (ne_of_apply hd (by decide))
    obtain ⟨htake, hdrop⟩ := takeWhile_append_of_all chars hc.not_isBareValueChar s
    simp only [tagValue?, OpeningValue.source, hrun, htake, hdrop]

/-- An attribute is read as a whole where white space or the end of the tag follows it. -/
theorem tagAttribute?_item {c : Char} (a : OpeningAttribute) (hc : FollowsAttribute c) (s : List Char) :
    tagAttribute? (a.item ++ c :: s) = some (a.item, c :: s) := by
  cases hvalue : a.value with
  | none =>
    obtain ⟨htake, hdrop⟩ := takeWhile_append_of_all a.nameChars hc.not_isNameChar s
    rw [OpeningAttribute.item_of_none hvalue, tagAttribute?, htake, hdrop]
    split
    · rename_i hname
      exact absurd hname a.named
    · split
      · rename_i heq
        exact absurd (List.cons.inj heq).1 hc.ne_equals
      · rfl
  | some v =>
    obtain ⟨htake, hdrop⟩ := takeWhile_append_of_all a.nameChars (c := '=') (by decide) (v.source ++ c :: s)
    rw [OpeningAttribute.item_of_some hvalue, List.append_assoc, List.cons_append, tagAttribute?, htake, hdrop]
    split
    · rename_i hname
      exact absurd hname a.named
    · simp only [tagValue?_source v hc]

theorem exists_source_of_quotedRun? {run : List Char} (h : Attribute.quotedRun? s = some (run, rest)) :
    ∃ v : OpeningValue, run = v.source := by
  obtain ⟨quote, inner, isQuote, unquoted, -, rfl⟩ := Attribute.quotedRun?_eq_some h
  exact ⟨.quoted quote inner isQuote unquoted, rfl⟩

theorem tagValue?_eq_some {value : List Char} (h : tagValue? s = some (value, rest)) :
    ∃ v : OpeningValue, value = v.source := by
  unfold tagValue? at h
  split at h
  · rename_i hrun
    cases h
    exact exists_source_of_quotedRun? hrun
  · split at h
    · cases h
    · rename_i hbare
      cases h
      exact ⟨.bare _ hbare fun c hc => List.all_eq_true.1 List.all_takeWhile c hc, rfl⟩

/-- What is read as an attribute is one, behind whatever white space. -/
theorem tagAttribute?_eq_some {item gap : List Char} (spaced : gap ≠ []) (blank : ∀ c ∈ gap, isBlank c = true)
    (h : tagAttribute? s = some (item, rest)) : ∃ a : OpeningAttribute, a.source = gap ++ item := by
  unfold tagAttribute? at h
  split at h
  · cases h
  · rename_i named
    have nameChars : ∀ c ∈ s.takeWhile Attribute.isNameChar, Attribute.isNameChar c = true :=
      fun c hc => List.all_eq_true.1 List.all_takeWhile c hc
    have nameless : ∃ a : OpeningAttribute, a.source = gap ++ s.takeWhile Attribute.isNameChar :=
      ⟨⟨gap, _, none, spaced, blank, named, nameChars⟩, by
        simp [OpeningAttribute.source, OpeningAttribute.item, OpeningAttribute.assigned]⟩
    split at h
    · split at h
      · rename_i hvalue
        cases h
        obtain ⟨v, rfl⟩ := tagValue?_eq_some hvalue
        exact ⟨⟨gap, _, some v, spaced, blank, named, nameChars⟩, rfl⟩
      · cases h
        exact nameless
    · cases h
      exact nameless

/-! ## One way to cut a text into attributes -/

theorem OpeningValue.source_inj {v w : OpeningValue} (h : v.source = w.source) : v = w := by
  have apart {quote : Char} {inner run : List Char} (isQuote : quote = '"' ∨ quote = '\'')
      (chars : ∀ c ∈ run, isBareValueChar c = true) : quote :: inner ++ [quote] ≠ run := by
    rintro rfl
    have hquote := chars quote (by simp)
    rcases isQuote with rfl | rfl <;> exact absurd hquote (by decide)
  cases v with
  | quoted quote inner isQuote unquoted =>
    cases w with
    | quoted quote' inner' _ _ =>
      obtain ⟨rfl, hinner⟩ := List.cons.inj h
      obtain rfl := List.append_cancel_right hinner
      rfl
    | bare run _ chars => exact absurd h (apart isQuote chars)
  | bare run _ chars =>
    cases w with
    | quoted quote inner isQuote _ => exact absurd h.symm (apart isQuote chars)
    | bare run' _ _ =>
      obtain rfl : run = run' := h
      rfl

namespace OpeningAttribute

theorem takeWhile_item (a : OpeningAttribute) : a.item.takeWhile Attribute.isNameChar = a.name := by
  cases hvalue : a.value with
  | none =>
    have htake : (a.name ++ []).takeWhile Attribute.isNameChar = _ := List.takeWhile_append_of_pos a.nameChars
    rw [item_of_none hvalue]
    simpa using htake
  | some v =>
    rw [item_of_some hvalue]
    exact (takeWhile_append_of_all a.nameChars (by decide) v.source).1

/-- White space in front of an attribute ends where the attribute starts. -/
theorem takeWhile_source (a : OpeningAttribute) (s : List Char) :
    (a.source ++ s).takeWhile isBlank = a.gap ∧ (a.source ++ s).dropWhile isBlank = a.item ++ s := by
  obtain ⟨c, item, hitem, hc⟩ := a.exists_item_eq_cons
  have hcut := takeWhile_append_of_all a.blank (Attribute.isBlank_of_isNameChar hc) (item ++ s)
  rwa [← List.cons_append, ← hitem, ← List.append_assoc] at hcut

theorem eq_of_gap_of_item {a b : OpeningAttribute} (hgap : a.gap = b.gap) (hitem : a.item = b.item) : a = b := by
  have hname : a.name = b.name := by rw [← a.takeWhile_item, ← b.takeWhile_item, hitem]
  have hvalue : a.value = b.value := by
    rw [item, item, hname, List.append_cancel_left_eq] at hitem
    cases ha : a.value with
    | none =>
      cases hb : b.value with
      | none => rfl
      | some w => simp [assigned, ha, hb] at hitem
    | some v =>
      cases hb : b.value with
      | none => simp [assigned, ha, hb] at hitem
      | some w =>
        have hsource : v.source = w.source := by simpa [assigned, ha, hb] using hitem
        rw [OpeningValue.source_inj hsource]
  cases a
  cases b
  simp_all

end OpeningAttribute

/-- White space is not cut into attributes. -/
theorem Cuts.nil_of_blank (h : Cuts attributes trailing text) (blank : ∀ c ∈ text, isBlank c = true) :
    attributes = [] := by
  cases attributes with
  | nil => rfl
  | cons a attributes =>
    obtain ⟨c, s, hitem, hc⟩ := a.exists_item_eq_cons
    have hblank := blank c (by simp [h.2, OpeningAttribute.source, hitem])
    rw [Attribute.isBlank_of_isNameChar hc] at hblank
    cases hblank

/-- There is one way to cut an attribute text. -/
theorem Cuts.unique {others : List OpeningAttribute} {trailing' : List Char}
    (h : Cuts attributes trailing text) (h' : Cuts others trailing' text) :
    others = attributes ∧ trailing' = trailing := by
  induction attributes generalizing others text with
  | nil =>
    have htext : text = trailing := h.2
    have hnone := h'.nil_of_blank (htext ▸ h.1)
    subst hnone
    exact ⟨rfl, h'.2.symm.trans h.2⟩
  | cons a attributes ih =>
    cases others with
    | nil =>
      have htext : text = trailing' := h'.2
      exact absurd (h.nil_of_blank (htext ▸ h'.1)) (List.cons_ne_nil _ _)
    | cons b others =>
      obtain ⟨inner, htext, hinner⟩ := h.exists_behind
      obtain ⟨inner', htext', hinner'⟩ := h'.exists_behind
      obtain ⟨c, s, hs, hc⟩ := hinner.exists_followsAttribute []
      obtain ⟨d, s', hs', hd⟩ := hinner'.exists_followsAttribute []
      -- with the end of a tag behind it, the text is read in one way
      have heq : a.source ++ c :: s = b.source ++ d :: s' := by
        rw [← hs, ← hs', ← List.append_assoc, ← List.append_assoc, ← htext, ← htext']
      have hgap : a.gap = b.gap := by rw [← (a.takeWhile_source _).1, heq, (b.takeWhile_source _).1]
      have hbehind : a.item ++ c :: s = b.item ++ d :: s' := by
        rw [← (a.takeWhile_source _).2, heq, (b.takeWhile_source _).2]
      have hread := tagAttribute?_item a hc s
      rw [hbehind, tagAttribute?_item b hd s', Option.some.injEq, Prod.mk.injEq] at hread
      obtain ⟨hitem, hmore⟩ := hread
      have hsame : b = a := OpeningAttribute.eq_of_gap_of_item hgap.symm hitem
      rw [← hs, ← hs', List.append_cancel_right_eq] at hmore
      obtain ⟨hothers, htrailing⟩ := ih hinner (hmore ▸ hinner')
      exact ⟨by rw [hsame, hothers], htrailing⟩

/-! ## Reading the tag -/

theorem getLastD_append (u v : List Char) (c : Char) : (u ++ v).getLastD c = v.getLastD (u.getLastD c) := by
  rw [List.getLastD_eq_getLast?, List.getLast?_append, Option.getD_or, ← List.getLastD_eq_getLast?,
    ← List.getLastD_eq_getLast?]

theorem getLastD_of_ne_nil (h : u ≠ []) (c d : Char) : u.getLastD c = u.getLastD d := by
  obtain ⟨b, v, rfl⟩ := List.exists_cons_of_ne_nil h
  rw [List.getLastD_cons, List.getLastD_cons]

theorem mayPrecedeEnd_of_isBlank {c : Char} (h : isBlank c = true) : mayPrecedeEnd c = true := by
  have hslash : c ≠ '/' := ne_of_apply h (by decide)
  have hequals : c ≠ '=' := ne_of_apply h (by decide)
  have hhyphen : c ≠ '-' := ne_of_apply h (by decide)
  simp [mayPrecedeEnd, hslash, hequals, hhyphen]

/-- What is read behind a name can be cut into attributes, and the character in front of the end may stand
there. -/
theorem exists_cuts_of_openingRest? {last : Char} (h : openingRest? last s = some (text, rest)) :
    (∃ attributes trailing, Cuts attributes trailing text) ∧ mayPrecedeEnd (text.getLastD last) = true := by
  fun_induction openingRest? last s generalizing text with
  | case1 => cases h
  | case2 last s hmay =>
    cases h
    exact ⟨⟨[], [], by simp, rfl⟩, hmay⟩
  | case3 => cases h
  | case4 last c s _ hblank item behind hitem ih =>
    obtain ⟨⟨inner, r⟩, hr, heq⟩ := Option.map_eq_some_iff.1 h
    cases heq
    have hgap : ∀ d ∈ c :: s.takeWhile isBlank, isBlank d = true :=
      List.forall_mem_cons.2 ⟨hblank, fun d hd => List.all_eq_true.1 List.all_takeWhile d hd⟩
    obtain ⟨a, ha⟩ := tagAttribute?_eq_some (List.cons_ne_nil c _) hgap hitem
    obtain ⟨⟨attributes, trailing, htrailing, hinner⟩, hmay⟩ := ih hr
    refine ⟨⟨a :: attributes, trailing, htrailing, ?_⟩, ?_⟩
    · rw [List.flatMap_cons, ha, List.append_assoc _ _ trailing, hinner]
    · rwa [getLastD_append, getLastD_append, getLastD_of_ne_nil (tagAttribute?_ne_nil hitem) _ c]
  | case5 last c s _ hblank _ r hr =>
    cases h
    have hgap : ∀ d ∈ c :: s.takeWhile isBlank, isBlank d = true :=
      List.forall_mem_cons.2 ⟨hblank, fun d hd => List.all_eq_true.1 List.all_takeWhile d hd⟩
    refine ⟨⟨[], _, hgap, rfl⟩, mayPrecedeEnd_of_isBlank (hgap _ ?_)⟩
    rw [List.getLastD_cons]
    exact List.getLastD_mem_cons
  | case6 => cases h
  | case7 => cases h

theorem tagAttribute?_end (s : List Char) : tagAttribute? ('>' :: s) = none := by
  have htake : ('>' :: s).takeWhile Attribute.isNameChar = [] := List.takeWhile_cons_of_neg (by decide)
  simp only [tagAttribute?, htake]

/-- White space in front of the end is read up to the end. -/
theorem openingRest?_trailing {last : Char} {trailing : List Char}
    (htrailing : ∀ c ∈ trailing, isBlank c = true) (hmay : mayPrecedeEnd (trailing.getLastD last) = true)
    (rest : List Char) : openingRest? last (trailing ++ '>' :: rest) = some (trailing, rest) := by
  cases trailing with
  | nil =>
    rw [List.getLastD_nil] at hmay
    rw [List.nil_append, openingRest?, if_pos rfl, if_pos hmay]
  | cons c trailing =>
    obtain ⟨hc, hmore⟩ := List.forall_mem_cons.1 htrailing
    obtain ⟨htake, hdrop⟩ := takeWhile_append_of_all hmore (c := '>') (by decide) rest
    rw [List.cons_append, openingRest?, if_neg (ne_of_apply hc (by decide)), if_pos hc]
    split
    · rename_i hitem
      rw [hdrop, tagAttribute?_end] at hitem
      cases hitem
    · rw [hdrop, htake]
      rfl

/-- An attribute is read as a whole, and then what follows it. -/
theorem openingRest?_source {last c : Char} (a : OpeningAttribute) (hc : FollowsAttribute c) (s : List Char) :
    openingRest? last (a.source ++ c :: s) =
      (openingRest? (a.source.getLastD last) (c :: s)).map fun (text, rest) => (a.source ++ text, rest) := by
  obtain ⟨b, gap, hgap⟩ := List.exists_cons_of_ne_nil a.spaced
  obtain ⟨hb, hblank⟩ := List.forall_mem_cons.1 (hgap ▸ a.blank)
  obtain ⟨d, item, hitem, hd⟩ := a.exists_item_eq_cons
  have hne : a.item ≠ [] := by simp [hitem]
  obtain ⟨htake, hdrop⟩ := takeWhile_append_of_all hblank (Attribute.isBlank_of_isNameChar hd) (item ++ c :: s)
  rw [← List.cons_append, ← hitem] at htake hdrop
  have hsource : a.source ++ c :: s = b :: (gap ++ (a.item ++ c :: s)) := by
    rw [OpeningAttribute.source, hgap]
    simp
  have hlast : a.item.getLastD b = a.source.getLastD last := by
    rw [OpeningAttribute.source, getLastD_append, getLastD_of_ne_nil hne]
  rw [hsource, openingRest?, if_neg (ne_of_apply hb (by decide)), if_pos hb]
  split
  · rename_i found
    rw [hdrop, tagAttribute?_item a hc] at found
    cases found
    rw [hlast, htake, ← hgap]
    rfl
  · rename_i found
    rw [hdrop, tagAttribute?_item a hc] at found
    cases found

/-- An attribute text in front of the end of a tag is read up to that end. -/
theorem openingRest?_of_cuts {last : Char} (h : Cuts attributes trailing text)
    (hmay : mayPrecedeEnd (text.getLastD last) = true) (rest : List Char) :
    openingRest? last (text ++ '>' :: rest) = some (text, rest) := by
  induction attributes generalizing last text with
  | nil =>
    obtain ⟨htrailing, rfl⟩ := h
    exact openingRest?_trailing htrailing hmay rest
  | cons a attributes ih =>
    obtain ⟨inner, rfl, hinner⟩ := h.exists_behind
    obtain ⟨c, s, hs, hc⟩ := hinner.exists_followsAttribute rest
    rw [getLastD_append] at hmay
    have hread := ih hinner hmay
    rw [hs] at hread
    rw [List.append_assoc, hs, openingRest?_source a hc, hread, Option.map_some]

/-- The grammar and the reading agree on what an opening tag is, where it ends and what its attribute text is. -/
theorem allowsOpening_iff (hname : IsTagName name) :
    AllowsOpening name s text rest ↔ opening? name s = some (text, rest) := by
  have hlast (gap text : List Char) :
      (gap ++ name ++ text).getLastD '<' = text.getLastD (name.getLastD '<') := by
    rw [getLastD_append, getLastD_append, getLastD_of_ne_nil hname.ne_nil]
  constructor
  · rintro ⟨gap, hgap, htext, rfl, hmay⟩
    obtain ⟨attributes, trailing, hcuts⟩ := mem_attributeTextGrammar.1 htext
    rw [hlast] at hmay
    have hfound (after : List Char) : afterName isBlank name (gap ++ (name ++ after)) = some after :=
      afterName_append_of_blank (mem_kstar_oneOf.1 hgap)
        (afterName_tagName hname fun c hc => isBlank_of_isTagChar hc)
    simp only [opening?, List.append_assoc, hfound]
    exact openingRest?_of_cuts hcuts hmay rest
  · intro h
    obtain ⟨r, after, rfl, hafter, hread⟩ := opening?_eq_some h
    obtain ⟨gap, rfl, hgap⟩ := eq_append_of_afterName hafter
    obtain ⟨hcuts, hmay⟩ := exists_cuts_of_openingRest? hread
    refine ⟨gap, mem_kstar_oneOf.2 (List.all_eq_true.1 hgap), mem_attributeTextGrammar.2 hcuts, ?_, ?_⟩
    · rw [openingRest?_append hread, List.append_assoc _ text]
    · rwa [hlast]

end

end Markup

namespace Stage

open Markup
open Text (isBlank)

/-- The stage of opening tags replaces what a reading from left to right finds. At every place of a text this is
all that the grammar allows there, so no choice within the grammar changes where a tag ends or what its attribute
text is. There is one way to cut that text into attributes, each behind white space, and white space at the end;
outside the values in quotes it holds no `>`, and the tag's end does not follow a `/`, `=` or `-`. -/
theorem run_opening {t : Target} (accepted : t.nameFault? = none) (s : List Char) :
    opening.run t s =
        .ok ((Markup.opening t.elementName).replace t.startText s, (Markup.opening t.elementName).count s) ∧
      ∀ before v, s = before ++ v →
        (∀ text rest, AllowsOpening t.elementName v text rest ↔
          (Markup.opening t.elementName).match? v = some (text, rest)) ∧
        (∀ text rest text' rest', AllowsOpening t.elementName v text rest →
          AllowsOpening t.elementName v text' rest' → text = text' ∧ rest = rest') ∧
        ∀ text rest, AllowsOpening t.elementName v text rest →
          ∃ gap attributes trailing front last,
            v = '<' :: (gap ++ t.elementName ++ text ++ '>' :: rest) ∧ (∀ c ∈ gap, isBlank c = true) ∧
            Cuts attributes trailing text ∧
            (∀ others trailing', Cuts others trailing' text → others = attributes ∧ trailing' = trailing) ∧
            '>' ∉ attributes.flatMap (·.outside) ++ trailing ∧
            gap ++ t.elementName ++ text = front ++ [last] ∧ last ≠ '/' ∧ last ≠ '=' ∧ last ≠ '-' := by
  have hname := Target.elementName_isTagName accepted
  refine ⟨run_of_runs (.inr accepted) s, fun before v _ => ⟨fun text rest => allowsOpening_iff hname, ?_, ?_⟩⟩
  · intro text rest text' rest' h h'
    have heq := (allowsOpening_iff hname).1 h
    rw [(allowsOpening_iff hname).1 h', Option.some.injEq, Prod.mk.injEq] at heq
    exact ⟨heq.1.symm, heq.2.symm⟩
  · rintro text rest ⟨gap, hgap, htext, hv, hmay⟩
    obtain ⟨attributes, trailing, hcuts⟩ := mem_attributeTextGrammar.1 htext
    have hne : gap ++ t.elementName ++ text ≠ [] := by simp [hname.ne_nil]
    have hfront := List.dropLast_append_getLast hne
    generalize (gap ++ t.elementName ++ text).getLast hne = last at hfront
    rw [← hfront, List.getLastD_concat] at hmay
    have hlast : (last ≠ '/' ∧ last ≠ '=') ∧ last ≠ '-' := by simpa [mayPrecedeEnd] using hmay
    exact ⟨gap, attributes, trailing, _, last, hv, mem_kstar_oneOf.1 hgap, hcuts, fun _ _ => hcuts.unique,
      hcuts.not_mem_outside, hfront.symm, hlast.1.1, hlast.1.2, hlast.2⟩

/-- Ends of tags and line feeds in values in quotes do not end the tag. -/
theorem run_opening_of_quoted_ends :
    let text := " a=\"1 >\n'\" b\t:c='/>' d=e/f\n".toList
    let s := "<x-card".toList ++ text ++ ">more>".toList
    xCard.nameFault? = none ∧ AllowsOpening xCard.elementName s text "more>".toList ∧
      (Markup.opening xCard.elementName).match? s = some (text, "more>".toList) := by
  intro text s
  have accepted : xCard.nameFault? = none := by decide +kernel
  have all {p : Char → Bool} {u : List Char} (h : u.all p = true) : ∀ c ∈ u, p c = true := List.all_eq_true.1 h
  let attributes : List OpeningAttribute := [
    ⟨[' '], ['a'], some (.quoted '"' "1 >\n'".toList (.inl rfl) (by decide)), by decide, all rfl, by decide,
      all rfl⟩,
    ⟨[' '], ['b'], none, by decide, all rfl, by decide, all rfl⟩,
    ⟨['\t'], ":c".toList, some (.quoted '\'' "/>".toList (.inr rfl) (by decide)), by decide, all rfl, by decide,
      all rfl⟩,
    ⟨[' '], ['d'], some (.bare "e/f".toList (by decide) (all rfl)), by decide, all rfl, by decide, all rfl⟩]
  have allowed : AllowsOpening xCard.elementName s text "more>".toList :=
    ⟨[], mem_kstar_oneOf.2 (all rfl), mem_attributeTextGrammar.2 ⟨attributes, ['\n'], all rfl, rfl⟩,
      by decide +kernel, by decide +kernel⟩
  obtain ⟨-, hplaces⟩ := run_opening accepted s
  exact ⟨accepted, allowed, ((hplaces [] s rfl).1 _ _).1 allowed⟩

end Stage

end ComponentTags
