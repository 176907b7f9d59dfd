import ComponentTags.Proofs.TagReading

/-!
# Reading attributes on a line

A self-closing element is read character by character up to its `/>`. The characters of names are passed
over one by one, and a value in double quotes is passed over as a whole, whatever stands in it, as long as
what follows its quote can be read.
-/

namespace ComponentTags.Attribute

theorem ne_of_isNameChar {c d : Char} (hd : isNameChar d = false) (h : isNameChar c = true) :
    c ≠ d := by
  rintro rfl
  rw [h] at hd
  cases hd

theorem isBlank_of_isNameChar {c : Char} (h : isNameChar c = true) : Text.isBlank c = false := by
  cases hblank : Text.isBlank c with
  | false => rfl
  | true =>
    have hcontinues := continuesName_of_isBlank hblank
    simp only [Markup.continuesName, Bool.or_eq_false_iff] at hcontinues
    obtain ⟨⟨⟨hword, hcolon⟩, -⟩, hhyphen⟩ := hcontinues
    simp [isNameChar, isPlainNameChar, hword, hcolon, hhyphen] at h

end ComponentTags.Attribute

namespace ComponentTags.Markup

open Attribute (isNameChar)
open Text (isBlank isInlineBlank)

variable {s rest text : List Char}

/-- A reading that starts with a text in front. -/
def Reading.prepend (u : List Char) : Reading → Reading :=
  Option.map fun (text, rest) => (u ++ text, rest)

theorem Reading.extend_prepend (c : Char) (u : List Char) (r : Reading) :
    Reading.extend c (Reading.prepend u r) = Reading.prepend (c :: u) r := by
  cases r <;> rfl

@[simp]
theorem Reading.prepend_nil (r : Reading) : Reading.prepend [] r = r := by
  cases r <;> rfl

theorem Reading.prepend_append (u v : List Char) (r : Reading) :
    Reading.prepend u (Reading.prepend v r) = Reading.prepend (u ++ v) r := by
  cases r with
  | none => rfl
  | some found => simp [Reading.prepend]

/-- The characters that a line is read over one by one: no end of a line or a tag, no quote, no slash and no
white space. -/
structure IsLineChar (c : Char) : Prop where
  notFeed : c ≠ '\n'
  notEnd : c ≠ '>'
  notDouble : c ≠ '"'
  notSingle : c ≠ '\''
  notSlash : c ≠ '/'
  notBlank : isBlank c = false

theorem isLineChar_of_isNameChar {c : Char} (h : isNameChar c = true) : IsLineChar c where
  notFeed := Attribute.ne_of_isNameChar (by decide) h
  notEnd := Attribute.ne_of_isNameChar (by decide) h
  notDouble := Attribute.ne_of_isNameChar (by decide) h
  notSingle := Attribute.ne_of_isNameChar (by decide) h
  notSlash := Attribute.ne_of_isNameChar (by decide) h
  notBlank := Attribute.isBlank_of_isNameChar h

theorem isLineChar_equals : IsLineChar '=' := by
  constructor <;> decide

theorem selfClosingEnd?_cons_of_ne {c : Char} (hblank : isInlineBlank c = false) (hslash : c ≠ '/')
    (s : List Char) : selfClosingEnd? (c :: s) = none := by
  unfold selfClosingEnd?
  rw [List.dropWhile_cons_of_neg (by simp [hblank])]
  split
  · rename_i heq
    exact absurd (List.cons.inj heq).1 hslash
  · rfl

theorem selfClosingEnd?_of_isLineChar {c : Char} (h : IsLineChar c) (s : List Char) :
    selfClosingEnd? (c :: s) = none :=
  selfClosingEnd?_cons_of_ne (isInlineBlank_of_not_isBlank h.notBlank) h.notSlash s

theorem here_cons_of_isLineChar {c : Char} (h : IsLineChar c) (s : List Char) :
    (readLine (c :: s)).here = Reading.extend c (readLine s).here := by
  simp [readLine, h.notFeed, h.notEnd, h.notDouble, h.notSingle, selfClosingEnd?_of_isLineChar h]

theorem here_append_of_isLineChar {u : List Char} (h : ∀ c ∈ u, IsLineChar c) (s : List Char) :
    (readLine (u ++ s)).here = Reading.prepend u (readLine s).here := by
  induction u with
  | nil => simp
  | cons c u ih =>
    rw [List.cons_append, here_cons_of_isLineChar (h c (by simp)),
      ih fun d hd => h d (by simp [hd]), Reading.extend_prepend]

/-- A space in front of a name is passed over. -/
theorem here_space_cons {c : Char} (h : IsLineChar c) (s : List Char) :
    (readLine (' ' :: c :: s)).here = Reading.extend ' ' (readLine (c :: s)).here := by
  have hend : selfClosingEnd? (' ' :: c :: s) = none := by
    have hskip : selfClosingEnd? (' ' :: c :: s) = selfClosingEnd? (c :: s) := by
      unfold selfClosingEnd?
      rw [List.dropWhile_cons_of_pos (by decide)]
    rw [hskip, selfClosingEnd?_of_isLineChar h]
  rw [readLine]
  simp [hend]

/-- The reading from behind the next quote of a kind. -/
def LineReading.past (line : LineReading) (quote : Char) : Reading :=
  if quote = '"' then line.pastDouble else line.pastSingle

theorem past_cons {quote c : Char} (hquote : quote = '"' ∨ quote = '\'') (hc : c ≠ '\n') :
    (readLine (c :: s)).past quote =
      Reading.extend c (if c = quote then (readLine s).here else (readLine s).past quote) := by
  rcases hquote with rfl | rfl <;> simp [readLine, hc, LineReading.past]

/-- Where the element does not end, a run is tried first, and then the character alone. -/
theorem here_cons {c : Char} (hc : c ≠ '\n') (hclose : selfClosingEnd? (c :: s) = none) :
    (readLine (c :: s)).here =
      Reading.extend c ((if c = '"' ∨ c = '\'' then (readLine s).past c else none).or
        (if c = '>' then none else (readLine s).here)) := by
  have hrun : (if c = '"' then (readLine s).pastDouble else if c = '\'' then (readLine s).pastSingle else none) =
      if c = '"' ∨ c = '\'' then (readLine s).past c else none := by
    by_cases hdouble : c = '"'
    · simp [hdouble, LineReading.past]
    · by_cases hsingle : c = '\'' <;> simp [hdouble, hsingle, LineReading.past]
  rw [readLine, if_neg hc]
  simp only [hclose, hrun]

/-- At a quote, a reading of its run goes before any other. -/
theorem here_cons_of_past {quote : Char} (hquote : quote = '"' ∨ quote = '\'')
    (h : (readLine s).past quote = some (text, rest)) :
    (readLine (quote :: s)).here = some (quote :: text, rest) := by
  have hn : quote ≠ '\n' := by rcases hquote with rfl | rfl <;> decide
  have hend : selfClosingEnd? (quote :: s) = none := by
    rcases hquote with rfl | rfl
    · exact selfClosingEnd?_cons_of_ne (by decide) (by decide) s
    · exact selfClosingEnd?_cons_of_ne (by decide) (by decide) s
  rw [here_cons hn hend, if_pos hquote, h]
  rfl

/-- From inside a run, the line is read on behind the quote that ends the run. -/
theorem past_append {quote : Char} {v : List Char} (hquote : quote = '"' ∨ quote = '\'')
    (hinside : quote ∉ v) (hfeed : '\n' ∉ v) (s : List Char) :
    (readLine (v ++ quote :: s)).past quote = Reading.prepend (v ++ [quote]) (readLine s).here := by
  induction v with
  | nil =>
    have hn : quote ≠ '\n' := by rcases hquote with rfl | rfl <;> decide
    rw [List.nil_append, past_cons hquote hn, if_pos rfl]
    cases (readLine s).here <;> rfl
  | cons c v ih =>
    rw [List.mem_cons, not_or] at hinside hfeed
    rw [List.cons_append, past_cons hquote (Ne.symm hfeed.1), if_neg (Ne.symm hinside.1),
      ih hinside.2 hfeed.2, Reading.extend_prepend]
    rfl

/-- A value in quotes is passed over. -/
theorem here_quoted {quote : Char} {v : List Char} (hquote : quote = '"' ∨ quote = '\'')
    (hinside : quote ∉ v) (hfeed : '\n' ∉ v) (h : (readLine s).here = some (text, rest)) :
    (readLine (quote :: (v ++ quote :: s))).here = some (quote :: (v ++ quote :: text), rest) := by
  have hpast := past_append hquote hinside hfeed s
  rw [h] at hpast
  simpa using here_cons_of_past hquote hpast

/-- An attribute with a value in double quotes is passed over. -/
theorem here_attribute {name v : List Char} (hname : ∀ c ∈ name, isNameChar c = true)
    (hquote : '"' ∉ v) (hfeed : '\n' ∉ v) (h : (readLine s).here = some (text, rest)) :
    (readLine (name ++ '=' :: '"' :: (v ++ '"' :: s))).here =
      some (name ++ '=' :: '"' :: (v ++ '"' :: text), rest) := by
  rw [here_append_of_isLineChar fun c hc => isLineChar_of_isNameChar (hname c hc),
    here_cons_of_isLineChar isLineChar_equals, here_quoted (.inl rfl) hquote hfeed h]
  simp [Reading.prepend, Reading.extend]

/-- At its end, behind white space or not, an element has been read. -/
theorem here_of_selfClosingEnd? (h : selfClosingEnd? s = some rest) :
    (readLine s).here = some ([], rest) := by
  cases s with
  | nil => cases h
  | cons c s =>
    by_cases hc : c = '\n'
    · rw [hc] at h
      unfold selfClosingEnd? at h
      rw [List.dropWhile_cons_of_neg (by decide)] at h
      cases h
    · rw [readLine, if_neg hc]
      simp [h]

/-- A self-closing element whose line can be read from behind the name. -/
theorem selfClosing?_of_here {name : List Char} (hname : IsTagName name)
    (hends : endsName s = true) (h : (readLine (s.dropWhile isInlineBlank)).here = some (text, rest)) :
    selfClosing? name ('<' :: (name ++ s)) = some (text, rest) := by
  have hfound : afterName isInlineBlank name (name ++ s) = some s :=
    afterName_tagName hname isTagChar_not_inlineBlank
  simp [selfClosing?, hfound, hends, h]

end ComponentTags.Markup
